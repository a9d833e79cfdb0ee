import Cuberef.Database

/-!
# Choosing the physical device

`select_physical_device` (`cuberef_client/src/vulkan/util.rs`) picks the device the client renders
with. It keeps the devices whose supported extensions contain the required ones and that have a
queue family which does graphics and can present to the window's surface. Of these it takes one of
least rank: a device whose name starts with `NVIDIA` first, then discrete, integrated and virtual
GPUs, CPUs, and other devices. It returns that device with the index of its first such family.

## How the selection is modelled

* **Devices.** A device is kept as what the selection reads: its name, its type, its supported
  extensions, and its queue families. The surface is fixed for the call, so the answer of
  `surface_support` for a family is kept with the family, `none` when the query fails.
  Extensions are kept by name, and `DeviceExtensions::contains` is inclusion.
* **Names.** `str::starts_with` compares bytes; on UTF-8 text that is a prefix of the characters.
* **The iterator.** `filter`, `filter_map` and `position` are `List.filter`, `List.filterMap` and
  `List.findIdx?`. Rust's `min_by_key` keeps the first of equally small elements: it is the fold
  `Iterator::min_by` runs, which keeps the element it has unless the next one is strictly smaller.
* **Left out.** The device names printed first, and the panics of `unwrap` and `expect` on the
  enumeration, which is the input list here.

## Main results

`BestDevice` says what the selection is for, in terms of the enumeration alone.
`select_physical_device_spec` shows the code meets it both ways: it returns a device and a family
exactly when they are the best, and fails with `no device available` exactly when no device is
usable. The step from `min_by_key` to the device list goes through `minByKey_split`, the first
least element of a list with what stands before and after it. `nvidia_device_preferred` follows
from the rank: while a usable device's name starts with `NVIDIA`, the chosen one's does.
-/

namespace Cuberef

/-- `PhysicalDeviceType`, with the types the rank does not name kept as `other`. -/
inductive PhysicalDeviceType
  | discreteGpu
  | integratedGpu
  | virtualGpu
  | cpu
  | other
deriving DecidableEq, Repr

/-- `QueueFamilyProperties`, as the selection reads it. -/
structure QueueFamilyProperties where
  /-- `queue_flags.contains(QueueFlags::GRAPHICS)`. -/
  graphics : Bool
  /-- `p.surface_support(i, surface)` for this family: `none` when the query fails. -/
  surfaceSupport : Option Bool
deriving DecidableEq, Repr

/-- `PhysicalDevice`, as the selection reads it. -/
structure PhysicalDevice where
  deviceName : String
  deviceType : PhysicalDeviceType
  supportedExtensions : List String
  queueFamilies : List QueueFamilyProperties
deriving DecidableEq, Repr

namespace QueueFamilyProperties

/-- The test of `position`: the family does graphics and `surface_support(i, surface)
.unwrap_or(false)` holds. -/
def presents (q : QueueFamilyProperties) : Bool := q.graphics && q.surfaceSupport.getD false

end QueueFamilyProperties

namespace PhysicalDevice

/-- `p.supported_extensions().contains(device_extensions)`. -/
def supports (p : PhysicalDevice) (deviceExtensions : List String) : Bool :=
  deviceExtensions.all fun e ↦ e ∈ p.supportedExtensions

/-- The `position` of the `filter_map`: the first queue family that draws and presents. -/
def graphicsQueue (p : PhysicalDevice) : Option Nat := p.queueFamilies.findIdx? (·.presents)

/-- The key of `min_by_key`. -/
def deviceKey (p : PhysicalDevice) : Int :=
  if "NVIDIA".toList.isPrefixOf p.deviceName.toList then -1
  else match p.deviceType with
    | .discreteGpu => 0
    | .integratedGpu => 1
    | .virtualGpu => 2
    | .cpu => 3
    | .other => 4

end PhysicalDevice

open PhysicalDevice

/-- `Iterator::min_by_key`: the first element of least key, `None` on an empty iterator. -/
def minByKey {α : Type} (key : α → Int) : List α → Option α
  | [] => none
  | a :: as => some (as.foldl (fun best x ↦ if key x < key best then x else best) a)

/-- The devices and families the `filter` and the `filter_map` pass on to `min_by_key`. -/
def candidates (deviceExtensions : List String) (devices : List PhysicalDevice) :
    List (PhysicalDevice × Nat) :=
  (devices.filter (·.supports deviceExtensions)).filterMap fun p ↦
    p.graphicsQueue.map fun q ↦ (p, q)

/-- **`select_physical_device`**. -/
def selectPhysicalDevice (deviceExtensions : List String) (devices : List PhysicalDevice) :
    Except Error (PhysicalDevice × Nat) :=
  match minByKey (fun c : PhysicalDevice × Nat ↦ c.1.deviceKey)
      (candidates deviceExtensions devices) with
  | some c => .ok c
  | none => .error (.msg "no device available")

/-! ### What the selection is for -/

/-- A device the renderer can use: it has the extensions, and a family that draws and presents. -/
def Usable (deviceExtensions : List String) (p : PhysicalDevice) : Prop :=
  (∀ e ∈ deviceExtensions, e ∈ p.supportedExtensions) ∧ ∃ f ∈ p.queueFamilies, f.presents

instance (deviceExtensions : List String) : DecidablePred (Usable deviceExtensions) :=
  fun _ ↦ inferInstanceAs (Decidable (_ ∧ _))

/-- `q` is the first queue family of `p` that draws and presents. -/
def FirstPresenting (p : PhysicalDevice) (q : Nat) : Prop :=
  ∃ pre f post, p.queueFamilies = pre ++ f :: post ∧ pre.length = q ∧ f.presents ∧
    ∀ g ∈ pre, g.presents = false

/-- **What `select_physical_device` is for.** `p` is usable, of least rank among the usable
devices, and the first of that rank in the enumeration; `q` is its first family that draws and
presents. -/
structure BestDevice (deviceExtensions : List String) (devices : List PhysicalDevice)
    (p : PhysicalDevice) (q : Nat) : Prop where
  usable : Usable deviceExtensions p
  first : ∃ pre post, devices = pre ++ p :: post ∧
    ∀ p' ∈ pre, Usable deviceExtensions p' → p.deviceKey < p'.deviceKey
  least : ∀ p' ∈ devices, Usable deviceExtensions p' → p.deviceKey ≤ p'.deviceKey
  queue : FirstPresenting p q

/-! ### `min_by_key` -/

section MinByKey

variable {α : Type} (key : α → Int)

/-- The invariant of the fold: the element kept is in what was seen, every element before it
has a greater key, and every element after it a key no smaller. -/
def FirstLeast (seen : List α) (best : α) : Prop :=
  ∃ pre post, seen = pre ++ best :: post ∧ (∀ b ∈ pre, key best < key b) ∧
    ∀ b ∈ post, key best ≤ key b

variable {key}

theorem FirstLeast.step {seen : List α} {best : α} (h : FirstLeast key seen best) (x : α) :
    FirstLeast key (seen ++ [x]) (if key x < key best then x else best) := by
  obtain ⟨pre, post, rfl, hpre, hpost⟩ := h
  by_cases hx : key x < key best
  · rw [if_pos hx]
    refine ⟨pre ++ best :: post, [], by simp, fun b hb ↦ ?_, fun _ h ↦ absurd h (List.not_mem_nil _)⟩
    rcases List.mem_append.mp hb with hb | hb
    · exact hx.trans (hpre b hb)
    · rcases List.mem_cons.mp hb with rfl | hb
      · exact hx
      · exact lt_of_lt_of_le hx (hpost b hb)
  · rw [if_neg hx]
    refine ⟨pre, post ++ [x], by simp, hpre, fun b hb ↦ ?_⟩
    rcases List.mem_append.mp hb with hb | hb
    · exact hpost b hb
    · rw [List.mem_singleton.mp hb]
      exact not_lt.mp hx

theorem FirstLeast.foldl {seen : List α} {best : α} (h : FirstLeast key seen best) (as : List α) :
    FirstLeast key (seen ++ as)
      (as.foldl (fun best x ↦ if key x < key best then x else best) best) := by
  induction as generalizing seen best with
  | nil => simpa using h
  | cons x as ih => simpa using ih (h.step x)

/-- **`min_by_key` returns the first least element.** -/
theorem minByKey_split {l : List α} {a : α} (h : minByKey key l = some a) :
    FirstLeast key l a := by
  cases l with
  | nil => cases h
  | cons b l =>
    cases h
    exact (show FirstLeast key [b] b from ⟨[], [], rfl, by simp, by simp⟩).foldl l

theorem minByKey_eq_none {l : List α} : minByKey key l = none ↔ l = [] := by
  cases l <;> simp [minByKey]

end MinByKey

/-! ### The steps of the iterator -/

/-- A device named for `NVIDIA` has the least rank of all, and no other device has it. -/
theorem deviceKey_neg_iff {p : PhysicalDevice} :
    p.deviceKey < 0 ↔ "NVIDIA".toList.isPrefixOf p.deviceName.toList := by
  unfold deviceKey
  split_ifs with h
  · exact iff_of_true (by decide) h
  · refine iff_of_false ?_ h
    split <;> decide

theorem supports_iff {p : PhysicalDevice} {deviceExtensions : List String} :
    p.supports deviceExtensions ↔ ∀ e ∈ deviceExtensions, e ∈ p.supportedExtensions := by
  simp [supports]

/-- `position` finds the first family that draws and presents. -/
theorem graphicsQueue_eq_some_iff {p : PhysicalDevice} {q : Nat} :
    p.graphicsQueue = some q ↔ FirstPresenting p q := by
  rw [graphicsQueue, FirstPresenting]
  induction p.queueFamilies generalizing q with
  | nil => exact iff_of_false (by simp) fun ⟨pre, _, _, h, _⟩ ↦ by cases pre <;> cases h
  | cons f fs ih =>
    rw [List.findIdx?_cons]
    by_cases hf : f.presents
    · rw [hf, if_pos rfl, Option.some.injEq]
      constructor
      · rintro rfl
        exact ⟨[], f, fs, rfl, rfl, hf, by simp⟩
      · rintro ⟨pre, g, post, heq, rfl, hg, hpre⟩
        cases pre with
        | nil => rfl
        | cons h pre =>
          cases List.cons.inj heq |>.1
          exact absurd hf (by simp [hpre f (List.mem_cons_self _ _)])
    · rw [Bool.not_eq_true] at hf
      rw [hf, if_neg Bool.false_ne_true, List.findIdx?_succ, Option.map_eq_some']
      constructor
      · rintro ⟨q, hq, rfl⟩
        obtain ⟨pre, g, post, rfl, rfl, hg, hpre⟩ := ih.mp hq
        exact ⟨f :: pre, g, post, rfl, rfl, hg, List.forall_mem_cons.mpr ⟨hf, hpre⟩⟩
      · rintro ⟨pre, g, post, heq, rfl, hg, hpre⟩
        cases pre with
        | nil => cases List.cons.inj heq |>.1; exact absurd hg (by simp [hf])
        | cons h pre =>
          obtain ⟨rfl, rfl⟩ := List.cons.inj heq
          exact ⟨pre.length, ih.mpr ⟨pre, g, post, rfl, rfl, hg,
            fun x hx ↦ hpre x (List.mem_cons_of_mem _ hx)⟩, rfl⟩

theorem graphicsQueue_isSome_iff {p : PhysicalDevice} :
    p.graphicsQueue.isSome ↔ ∃ f ∈ p.queueFamilies, f.presents := by
  rw [graphicsQueue, List.findIdx?_isSome, List.any_eq_true]

/-- What one device contributes to the candidates, as one `filter_map`. -/
theorem candidates_eq (deviceExtensions : List String) (devices : List PhysicalDevice) :
    candidates deviceExtensions devices = devices.filterMap fun p ↦
      if p.supports deviceExtensions then p.graphicsQueue.map fun q ↦ (p, q) else none :=
  List.filterMap_filter _ _ _

section Candidates

variable {deviceExtensions : List String} {p : PhysicalDevice} {q : Nat}

theorem candidate_eq_some {c : PhysicalDevice × Nat} :
    (if p.supports deviceExtensions then p.graphicsQueue.map fun q ↦ (p, q) else none) = some c ↔
      c.1 = p ∧ p.supports deviceExtensions ∧ p.graphicsQueue = some c.2 := by
  obtain ⟨p', q'⟩ := c
  by_cases hs : p.supports deviceExtensions
  · simp only [hs, if_true, Option.map_eq_some', Prod.mk.injEq, true_and]
    constructor
    · rintro ⟨q, hq, rfl, rfl⟩
      exact ⟨rfl, hq⟩
    · rintro ⟨rfl, hq⟩
      exact ⟨q', hq, rfl, rfl⟩
  · simp [hs]

theorem candidate_eq_none :
    (if p.supports deviceExtensions then p.graphicsQueue.map fun q ↦ (p, q) else none) = none ↔
      ¬ Usable deviceExtensions p := by
  rw [Usable, ← supports_iff, ← graphicsQueue_isSome_iff]
  by_cases hs : p.supports deviceExtensions
  · simp [hs, Option.isNone_iff_eq_none]
  · simp [hs]

theorem mem_candidates :
    (p, q) ∈ candidates deviceExtensions devices ↔
      p ∈ devices ∧ p.supports deviceExtensions ∧ p.graphicsQueue = some q := by
  rw [candidates_eq, List.mem_filterMap]
  constructor
  · rintro ⟨p', hp', hc⟩
    obtain ⟨rfl, hs, hq⟩ := candidate_eq_some.mp hc
    exact ⟨hp', hs, hq⟩
  · rintro ⟨hp, hs, hq⟩
    exact ⟨p, hp, candidate_eq_some.mpr ⟨rfl, hs, hq⟩⟩

theorem usable_iff_exists_candidate {devices : List PhysicalDevice} (hp : p ∈ devices) :
    Usable deviceExtensions p ↔ ∃ q, (p, q) ∈ candidates deviceExtensions devices := by
  rw [Usable, ← supports_iff, ← graphicsQueue_isSome_iff, Option.isSome_iff_exists]
  simp only [mem_candidates, hp, true_and]
  exact ⟨fun ⟨hs, q, hq⟩ ↦ ⟨q, hs, hq⟩, fun ⟨q, hs, hq⟩ ↦ ⟨hs, q, hq⟩⟩

end Candidates

/-! ### The selection meets its purpose -/

section Selection

variable {deviceExtensions : List String} {devices : List PhysicalDevice}

/-- The first least candidate is the best device: the candidates before it come from the devices
before it, and a device before it that is no candidate is not usable. -/
theorem bestDevice_of_firstLeast {p : PhysicalDevice} {q : Nat}
    (h : FirstLeast (fun c : PhysicalDevice × Nat ↦ c.1.deviceKey)
      (candidates deviceExtensions devices) (p, q)) :
    BestDevice deviceExtensions devices p q := by
  obtain ⟨cpre, cpost, hsplit, hpre, hpost⟩ := h
  have hmem : (p, q) ∈ candidates deviceExtensions devices := hsplit ▸ by simp
  obtain ⟨hp, hs, hq⟩ := mem_candidates.mp hmem
  have husable : Usable deviceExtensions p :=
    (usable_iff_exists_candidate hp).mpr ⟨q, hmem⟩
  refine ⟨husable, ?_, fun p' hp' hu ↦ ?_, graphicsQueue_eq_some_iff.mp hq⟩
  · rw [candidates_eq] at hsplit
    obtain ⟨l₁, l₂, rfl, h₁, h₂⟩ := List.filterMap_eq_append_iff.mp hsplit
    obtain ⟨m₁, a, m₂, rfl, hnone, ha, -⟩ := List.filterMap_eq_cons_iff.mp h₂
    obtain ⟨rfl, -⟩ := candidate_eq_some.mp ha
    refine ⟨l₁ ++ m₁, m₂, by simp, fun p' hp' hu ↦ ?_⟩
    rcases List.mem_append.mp hp' with hp' | hp'
    · obtain ⟨c, hc⟩ := Option.isSome_iff_exists.mp (Option.ne_none_iff_isSome.mp
        (mt candidate_eq_none.mp (not_not.mpr hu)))
      rw [← (candidate_eq_some.mp hc).1]
      exact hpre c (h₁ ▸ List.mem_filterMap.mpr ⟨p', hp', hc⟩)
    · exact absurd hu (candidate_eq_none.mp (hnone p' hp'))
  · obtain ⟨q', hq'⟩ := (usable_iff_exists_candidate hp').mp hu
    rw [hsplit] at hq'
    rcases List.mem_append.mp hq' with hq' | hq'
    · exact (hpre (p', q') hq').le
    · rcases List.mem_cons.mp hq' with he | hq'
      · rw [(Prod.mk.inj he).1]
      · exact hpost (p', q') hq'

/-- A list split twice around one position at different places: the first element sits in the
longer prefix. -/
theorem mem_of_append_cons_eq {α : Type} {pre₁ pre₂ post₁ post₂ : List α} {a b : α}
    (h : pre₁ ++ a :: post₁ = pre₂ ++ b :: post₂) (hlt : pre₁.length < pre₂.length) :
    a ∈ pre₂ := by
  have ha : (pre₁ ++ a :: post₁)[pre₁.length]? = some a := by
    rw [List.getElem?_append_right (le_refl _), Nat.sub_self, List.getElem?_cons_zero]
  rw [h, List.getElem?_append_left hlt] at ha
  exact List.getElem?_mem ha

/-- There is one best device, with one family. -/
theorem BestDevice.unique {p₁ p₂ : PhysicalDevice} {q₁ q₂ : Nat}
    (h₁ : BestDevice deviceExtensions devices p₁ q₁)
    (h₂ : BestDevice deviceExtensions devices p₂ q₂) : p₁ = p₂ ∧ q₁ = q₂ := by
  obtain ⟨pre₁, post₁, hs₁, hpre₁⟩ := h₁.first
  obtain ⟨pre₂, post₂, hs₂, hpre₂⟩ := h₂.first
  have hp : p₁ = p₂ := by
    rcases lt_trichotomy pre₁.length pre₂.length with hlt | heq | hlt
    · have := hpre₂ p₁ (mem_of_append_cons_eq (hs₁.symm.trans hs₂) hlt) h₁.usable
      exact absurd (h₁.least p₂ (hs₂ ▸ by simp) h₂.usable) (not_le.mpr this)
    · exact (List.cons.inj (List.append_inj (hs₁.symm.trans hs₂) heq).2).1
    · have := hpre₁ p₂ (mem_of_append_cons_eq (hs₂.symm.trans hs₁) hlt) h₂.usable
      exact absurd (h₂.least p₁ (hs₁ ▸ by simp) h₁.usable) (not_le.mpr this)
  subst hp
  have hq := (graphicsQueue_eq_some_iff.mpr h₁.queue).symm.trans
    (graphicsQueue_eq_some_iff.mpr h₂.queue)
  exact ⟨rfl, Option.some.inj hq⟩

/-- A returned device is the best one. -/
theorem bestDevice_of_select {p : PhysicalDevice} {q : Nat}
    (h : selectPhysicalDevice deviceExtensions devices = .ok (p, q)) :
    BestDevice deviceExtensions devices p q := by
  unfold selectPhysicalDevice at h
  split at h
  · cases h
    exact bestDevice_of_firstLeast (minByKey_split ‹_›)
  · cases h

/-- The selection fails exactly when no device is usable. -/
theorem select_eq_error_iff {e : Error} :
    selectPhysicalDevice deviceExtensions devices = .error e ↔
      e = .msg "no device available" ∧ ∀ p ∈ devices, ¬ Usable deviceExtensions p := by
  have hnone : candidates deviceExtensions devices = [] ↔
      ∀ p ∈ devices, ¬ Usable deviceExtensions p := by
    rw [List.eq_nil_iff_forall_not_mem]
    constructor
    · exact fun h p hp hu ↦ ((usable_iff_exists_candidate hp).mp hu).elim fun q hq ↦ h _ hq
    · exact fun h ⟨p, q⟩ hc ↦ h p (mem_candidates.mp hc).1
        ((usable_iff_exists_candidate (mem_candidates.mp hc).1).mpr ⟨q, hc⟩)
  have hmin : minByKey (fun c : PhysicalDevice × Nat ↦ c.1.deviceKey)
      (candidates deviceExtensions devices) = none ↔ candidates deviceExtensions devices = [] :=
    minByKey_eq_none
  rw [← hnone, ← hmin, selectPhysicalDevice]
  split
  next h => simp [h]
  next h => simp [h, eq_comm]

/-- **`select_physical_device` does what it is for.** It returns a device and a family exactly
when they are the best device of the enumeration and its first family that draws and presents,
and it fails exactly when no device is usable, with the text `no device available`. -/
theorem select_physical_device_spec (deviceExtensions : List String)
    (devices : List PhysicalDevice) :
    (∀ p q, selectPhysicalDevice deviceExtensions devices = .ok (p, q) ↔
      BestDevice deviceExtensions devices p q) ∧
    ∀ e, selectPhysicalDevice deviceExtensions devices = .error e ↔
      e = .msg "no device available" ∧ ∀ p ∈ devices, ¬ Usable deviceExtensions p := by
  refine ⟨fun p q ↦ ⟨bestDevice_of_select, fun hb ↦ ?_⟩, fun e ↦ select_eq_error_iff⟩
  cases hs : selectPhysicalDevice deviceExtensions devices with
  | error e =>
    exact absurd hb.usable ((select_eq_error_iff.mp hs).2 p ((hb.first.elim fun pre h ↦
      h.elim fun post h ↦ h.1 ▸ by simp)))
  | ok c =>
    obtain ⟨rfl, rfl⟩ := (bestDevice_of_select hs).unique hb
    rfl

/-- **A usable NVIDIA device is always chosen over the others.** While some usable device's name
starts with `NVIDIA`, the selection returns a device whose name does, whatever the types and the
order of the other devices. -/
theorem nvidia_device_preferred
    (hnv : ∃ p' ∈ devices, Usable deviceExtensions p' ∧
      "NVIDIA".toList.isPrefixOf p'.deviceName.toList) :
    ∃ p q, selectPhysicalDevice deviceExtensions devices = .ok (p, q) ∧
      "NVIDIA".toList.isPrefixOf p.deviceName.toList := by
  obtain ⟨p', hp', hu, hname⟩ := hnv
  cases hs : selectPhysicalDevice deviceExtensions devices with
  | error e => exact absurd hu ((select_eq_error_iff.mp hs).2 p' hp')
  | ok c =>
    refine ⟨c.1, c.2, rfl, deviceKey_neg_iff.mp ?_⟩
    calc c.1.deviceKey ≤ p'.deviceKey := (bestDevice_of_select hs).least p' hp' hu
      _ < 0 := deviceKey_neg_iff.mpr hname

/-- A laptop's devices: an integrated GPU listed first, a discrete one, and an NVIDIA GPU whose
first queue family's surface query fails. -/
def laptopDevices : List PhysicalDevice :=
  [⟨"Intel(R) UHD Graphics", .integratedGpu, ["VK_KHR_swapchain"], [⟨true, some true⟩]⟩,
    ⟨"AMD Radeon RX 6600", .discreteGpu, ["VK_KHR_swapchain"], [⟨true, some true⟩]⟩,
    ⟨"NVIDIA GeForce RTX 3060", .discreteGpu, ["VK_KHR_swapchain"],
      [⟨true, none⟩, ⟨true, some true⟩]⟩]

/-- The NVIDIA GPU of the laptop is chosen. -/
theorem nvidia_device_preferred_laptop :
    (∃ p' ∈ laptopDevices, Usable ["VK_KHR_swapchain"] p' ∧
      "NVIDIA".toList.isPrefixOf p'.deviceName.toList) ∧
    ∃ p q, selectPhysicalDevice ["VK_KHR_swapchain"] laptopDevices = .ok (p, q) ∧
      "NVIDIA".toList.isPrefixOf p.deviceName.toList :=
  ⟨by decide, nvidia_device_preferred (by decide)⟩

end Selection

end Cuberef
