import Cuberef.Database
import Mathlib.Data.List.AList

/-!
# The item registries of the server and the client

The server keeps its items in `ItemManager` (`cuberef_server/src/game_state/items.rs`), filled by
`register_item`; the client builds `ClientItemManager` (`cuberef_client/src/game_state/items.rs`)
from a vector of item definitions in one call of `ClientItemManager::new`. Both are maps from
short names to items, and both refuse a short name they already hold, with the same text.

## How the registries are modelled

* **Maps.** Each `HashMap` is an `AList`, one entry per key. `registered_items` and
  `all_item_defs` iterate the map's values in an order the source leaves unspecified. The list's
  order stands for it, and statements about what a client receives quantify over every order
  (`List.Perm`).
* **Items.** An `Item` is kept as its definition; its dig, tap and place handlers are closures no
  modelled code calls.
* **Calls.** `register_item` is a step of `EStateM` on the manager: an error leaves it as it
  was. `registerEach` is a sequence of calls, each on the manager the last one left.

## Main results

* `first_registration_wins`: after any sequence of `register_item` calls, `get_item` returns for
  every name the first item registered under it (`getItem_registerEach`, from one call's effect
  `getItem_registerItem`), and every later registration of the name was refused, changing nothing
  (`registerItem_cases`, with `mem_registerEach`).
* `client_item_manager_new_spec`: `ClientItemManager::new` returns `Ok` exactly when the short
  names of its input are distinct. Its `get` then returns the definition of that short name, and
  an error names a short name of the input.
* `client_registry_agrees_with_server`: a client built from the server's registered definitions,
  sent in any order, is built without error and answers every `get` as the server's `get_item`
  does. The server's map holds each item under its own short name (`Keyed`, kept by
  `register_item`), so the names it sends are distinct.
-/

namespace Cuberef

/-- `Item`: an item's definition. -/
structure Item where
  proto : ItemDef
deriving DecidableEq, Repr

/-- The text of the error both registries raise for a short name they already hold. -/
def alreadyRegistered (name : String) : Error := .msg ("Item " ++ name ++ " already registered")

/-- `ItemManager`: the registered items, by short name. -/
structure ItemManager where
  items : AList fun _ : String ↦ Item

namespace ItemManager

/-- `ItemManager::new`. -/
def new : ItemManager := ⟨∅⟩

/-- `ItemManager::get_item`. -/
def getItem (self : ItemManager) (name : String) : Option Item := self.items.lookup name

/-- `ItemManager::from_stack`: the item a stack is of, by its item name. -/
def fromStack (self : ItemManager) (stack : ItemStack) : Option Item := self.getItem stack.itemName

/-- **`ItemManager::register_item`**: refuse a short name already registered, and otherwise
insert the item under it. -/
def registerItem (item : Item) : EStateM Error ItemManager Unit := fun self ↦
  if item.proto.shortName ∈ self.items then .error (alreadyRegistered item.proto.shortName) self
  else .ok () ⟨self.items.insert item.proto.shortName item⟩

/-- `ItemManager::registered_items`: the values of the map. -/
def registeredItems (self : ItemManager) : List Item := self.items.entries.map (·.2)

/-- A sequence of `register_item` calls, each on the manager the last one left. -/
def registerEach : List Item → ItemManager → ItemManager
  | [], m => m
  | item :: items, m => registerEach items (registerItem item m).state

/-- Every item is registered under its own short name. -/
def Keyed (m : ItemManager) : Prop := ∀ x ∈ m.items.entries, x.2.proto.shortName = x.1

variable {m m' : ItemManager} {item : Item}

/-- **What `register_item` does.** It fails, changing nothing, exactly on a registered short
name, and otherwise inserts the item under its short name. -/
theorem registerItem_cases (item : Item) (m : ItemManager) :
    (item.proto.shortName ∈ m.items ∧
        registerItem item m = .error (alreadyRegistered item.proto.shortName) m) ∨
      (item.proto.shortName ∉ m.items ∧
        registerItem item m = .ok () ⟨m.items.insert item.proto.shortName item⟩) := by
  by_cases h : item.proto.shortName ∈ m.items
  · exact .inl ⟨h, if_pos h⟩
  · exact .inr ⟨h, if_neg h⟩

theorem Keyed.registerItem (h : m.Keyed) (item : Item) : (registerItem item m).state.Keyed := by
  rcases registerItem_cases item m with ⟨-, hr⟩ | ⟨-, hr⟩
  · rwa [hr]
  · rw [hr]
    intro x hx
    rw [EStateM.Result.state_ok, AList.insert_entries] at hx
    rcases List.mem_cons.mp hx with rfl | hx
    · rfl
    · exact h x ((List.kerase_sublist _ _).subset hx)

theorem Keyed.registerEach (h : m.Keyed) (items : List Item) : (registerEach items m).Keyed := by
  induction items generalizing m with
  | nil => exact h
  | cons item items ih => exact ih (h.registerItem item)

theorem keyed_new : new.Keyed := fun _ h ↦ absurd h (List.not_mem_nil _)

/-- One `register_item` call, through `get_item`: a name keeps the item it has, and a name
without one gets the item registered under it. -/
theorem getItem_registerItem (item : Item) (m : ItemManager) (name : String) :
    (registerItem item m).state.getItem name =
      (m.getItem name).or (if item.proto.shortName = name then some item else none) := by
  by_cases h : item.proto.shortName = name
  · subst h
    rw [if_pos rfl]
    rcases registerItem_cases item m with ⟨hmem, hr⟩ | ⟨hnot, hr⟩
    · obtain ⟨it, hit⟩ := Option.isSome_iff_exists.mp (AList.lookup_isSome.mpr hmem)
      rw [hr, EStateM.Result.state_error, getItem, hit, Option.or_some]
    · rw [hr, EStateM.Result.state_ok, getItem, getItem, AList.lookup_insert,
        AList.lookup_eq_none.mpr hnot, Option.none_or]
  · rw [if_neg h, Option.or_none]
    rcases registerItem_cases item m with ⟨-, hr⟩ | ⟨-, hr⟩
    · rw [hr, EStateM.Result.state_error]
    · rw [hr, EStateM.Result.state_ok, getItem, getItem, AList.lookup_insert_ne (Ne.symm h)]

/-- A sequence of `register_item` calls, through `get_item`: a name keeps the item it has, and
otherwise gets the first item of the sequence registered under it. -/
theorem getItem_registerEach (items : List Item) (m : ItemManager) (name : String) :
    (registerEach items m).getItem name =
      (m.getItem name).or (items.find? (·.proto.shortName = name)) := by
  induction items generalizing m with
  | nil => rw [registerEach, List.find?_nil, Option.or_none]
  | cons item items ih =>
    rw [registerEach, ih, getItem_registerItem, Option.or_assoc, List.find?_cons]
    by_cases h : item.proto.shortName = name
    · simp only [h, if_true, decide_True, Option.or_some]
    · simp only [h, if_false, decide_False, Option.none_or]

/-- After a sequence of `register_item` calls, the short name of every item of it is registered. -/
theorem mem_registerEach {items : List Item} {x : Item} (hx : x ∈ items) (m : ItemManager) :
    x.proto.shortName ∈ (registerEach items m).items := by
  have hfind : (items.find? (·.proto.shortName = x.proto.shortName)).isSome :=
    List.find?_isSome.mpr ⟨x, hx, decide_eq_true rfl⟩
  obtain ⟨y, hy⟩ := Option.isSome_iff_exists.mp hfind
  apply AList.lookup_isSome.mp
  change ((registerEach items m).getItem _).isSome = true
  rw [getItem_registerEach, hy]
  cases m.getItem x.proto.shortName <;> rfl

/-- **The first registration of a name wins.** After any sequence of `register_item` calls on
a new manager, `get_item` returns for every name the first item of the sequence registered under
it; and each later registration of the name was refused with the already-registered error and
left the manager as it was. -/
theorem first_registration_wins (items : List Item) (name : String) :
    (registerEach items new).getItem name = items.find? (·.proto.shortName = name) ∧
      ∀ pre item post, items = pre ++ item :: post → item.proto.shortName = name →
        (∃ x ∈ pre, x.proto.shortName = name) →
        registerItem item (registerEach pre new) =
          .error (alreadyRegistered name) (registerEach pre new) := by
  refine ⟨by rw [getItem_registerEach, show new.getItem name = none from rfl, Option.none_or],
    fun pre item post _ hname ⟨x, hx, hxname⟩ ↦ ?_⟩
  subst hname
  rcases registerItem_cases item (registerEach pre new) with ⟨-, hr⟩ | ⟨hn, -⟩
  · exact hr
  · exact absurd (hxname ▸ mem_registerEach hx new) hn

/-- `dirt`, then `stone`, then `dirt` again with another stack limit. -/
def dirtTwice : List Item :=
  [⟨⟨"dirt", some (.stack 256)⟩⟩, ⟨⟨"stone", some (.stack 64)⟩⟩, ⟨⟨"dirt", some (.stack 16)⟩⟩]

/-- The first `dirt` is the one `get_item` returns, and the second was refused. -/
theorem first_registration_wins_dirt :
    (registerEach dirtTwice new).getItem "dirt" = some ⟨⟨"dirt", some (.stack 256)⟩⟩ ∧
      registerItem ⟨⟨"dirt", some (.stack 16)⟩⟩ (registerEach (dirtTwice.take 2) new) =
        .error (alreadyRegistered "dirt") (registerEach (dirtTwice.take 2) new) :=
  have h := first_registration_wins dirtTwice "dirt"
  ⟨h.1.trans rfl, h.2 _ _ [] rfl rfl ⟨_, List.mem_cons_self _ _, rfl⟩⟩

/-- The short names of the registered definitions are the map's keys. -/
theorem Keyed.map_shortName (h : m.Keyed) :
    (m.registeredItems.map (·.proto)).map (·.shortName) = m.items.keys := by
  simp only [registeredItems, List.map_map, AList.keys, List.keys]
  exact List.map_congr_left fun x hx ↦ h x hx

/-- A registered definition is the definition of the item its short name gets. -/
theorem Keyed.mem_registered_iff (h : m.Keyed) {name : String} {d : ItemDef} :
    d ∈ m.registeredItems.map (·.proto) ∧ d.shortName = name ↔
      (m.getItem name).map (·.proto) = some d := by
  simp only [registeredItems, List.map_map, List.mem_map, Function.comp, getItem,
    Option.map_eq_some']
  constructor
  · rintro ⟨⟨x, hx, rfl⟩, rfl⟩
    exact ⟨x.2, AList.mem_lookup_iff.mpr (h x hx ▸ hx), rfl⟩
  · rintro ⟨it, hit, rfl⟩
    have hx := AList.mem_lookup_iff.mp hit
    exact ⟨⟨_, hx, rfl⟩, h _ hx⟩

end ItemManager

/-- `ClientItemManager`: the item definitions the server sent, by short name. -/
structure ClientItemManager where
  itemDefs : AList fun _ : String ↦ ItemDef

namespace ClientItemManager

/-- The loop of `ClientItemManager::new`: insert each definition under its short name, and
return the error at the first short name already inserted. -/
def newGo : (AList fun _ : String ↦ ItemDef) → List ItemDef →
    Except Error (AList fun _ : String ↦ ItemDef)
  | itemDefs, [] => .ok itemDefs
  | itemDefs, item :: items =>
    if item.shortName ∈ itemDefs then .error (alreadyRegistered item.shortName)
    else newGo (itemDefs.insert item.shortName item) items

/-- **`ClientItemManager::new`**. -/
def new (items : List ItemDef) : Except Error ClientItemManager :=
  (newGo ∅ items).map ClientItemManager.mk

/-- `ClientItemManager::get`. -/
def get (self : ClientItemManager) (name : String) : Option ItemDef := self.itemDefs.lookup name

/-- `ClientItemManager::all_item_defs`. -/
def allItemDefs (self : ClientItemManager) : List ItemDef := self.itemDefs.entries.map (·.2)

variable {acc acc' : AList fun _ : String ↦ ItemDef} {items : List ItemDef}

/-- The loop returns when the short names are distinct and new, and then holds what it started
with and each definition under its short name. -/
theorem newGo_of_nodup :
    ∀ (acc : AList fun _ : String ↦ ItemDef) {items : List ItemDef},
      (items.map (·.shortName)).Nodup → (∀ d ∈ items, d.shortName ∉ acc) →
      ∃ acc', newGo acc items = .ok acc' ∧
        ∀ name d, acc'.lookup name = some d ↔ acc.lookup name = some d ∨
          d ∈ items ∧ d.shortName = name
  | acc, [], _, _ => ⟨acc, rfl, by simp⟩
  | acc, item :: items, hn, ha => by
    obtain ⟨hnotin, hn⟩ := List.nodup_cons.mp hn
    have hfresh : ∀ d ∈ items, d.shortName ≠ item.shortName := fun d hd e ↦
      hnotin (List.mem_map.mpr ⟨d, hd, e⟩)
    rw [newGo, if_neg (ha item (List.mem_cons_self _ _))]
    obtain ⟨acc', h, hspec⟩ := newGo_of_nodup (acc.insert item.shortName item) hn
      fun d hd hmem ↦ (AList.mem_insert _).mp hmem |>.elim (hfresh d hd)
        (ha d (List.mem_cons_of_mem _ hd))
    refine ⟨acc', h, fun name d ↦ ?_⟩
    rw [hspec]
    by_cases e : name = item.shortName
    · subst e
      have hlook : acc.lookup item.shortName = none :=
        AList.lookup_eq_none.mpr (ha item (List.mem_cons_self _ _))
      rw [AList.lookup_insert, hlook, Option.some.injEq]
      constructor
      · rintro (rfl | ⟨hd, hdn⟩)
        · exact .inr ⟨List.mem_cons_self _ _, rfl⟩
        · exact absurd hdn (hfresh d hd)
      · rintro (h | ⟨hd, hdn⟩)
        · cases h
        · rcases List.mem_cons.mp hd with rfl | hd
          · exact .inl rfl
          · exact absurd hdn (hfresh d hd)
    · rw [AList.lookup_insert_ne e]
      simp only [List.mem_cons]
      constructor
      · rintro (h | ⟨hd, hdn⟩)
        · exact .inl h
        · exact .inr ⟨.inr hd, hdn⟩
      · rintro (h | ⟨rfl | hd, hdn⟩)
        · exact .inl h
        · exact absurd hdn.symm e
        · exact .inr ⟨hd, hdn⟩

/-- A loop that returned met only distinct short names, none of them in what it started with. -/
theorem nodup_of_newGo_ok :
    ∀ {acc acc' : AList fun _ : String ↦ ItemDef} {items : List ItemDef},
      newGo acc items = .ok acc' →
      (items.map (·.shortName)).Nodup ∧ ∀ d ∈ items, d.shortName ∉ acc
  | _, _, [], _ => ⟨List.nodup_nil, fun _ h ↦ absurd h (List.not_mem_nil _)⟩
  | acc, _, item :: items, h => by
    rw [newGo] at h
    split_ifs at h with hmem
    obtain ⟨hn, ha⟩ := nodup_of_newGo_ok h
    refine ⟨List.nodup_cons.mpr ⟨fun hi ↦ ?_, hn⟩, fun d hd ↦ ?_⟩
    · obtain ⟨d, hd, hdn⟩ := List.mem_map.mp hi
      exact ha d hd ((AList.mem_insert _).mpr (.inl hdn))
    · rcases List.mem_cons.mp hd with rfl | hd
      · exact hmem
      · exact fun h ↦ ha d hd ((AList.mem_insert _).mpr (.inr h))

/-- An error of the loop names a short name of its input. -/
theorem newGo_error :
    ∀ {acc : AList fun _ : String ↦ ItemDef} {items : List ItemDef} {e : Error},
      newGo acc items = .error e → ∃ d ∈ items, e = alreadyRegistered d.shortName
  | _, [], _, h => by cases h
  | acc, item :: items, e, h => by
    rw [newGo] at h
    split_ifs at h
    · cases h
      exact ⟨item, List.mem_cons_self _ _, rfl⟩
    · obtain ⟨d, hd, rfl⟩ := newGo_error h
      exact ⟨d, List.mem_cons_of_mem _ hd, rfl⟩

/-- With distinct short names, `new` returns `Ok`, and its `get` finds each definition under its
short name and nothing under other names. -/
theorem new_of_nodup (hn : (items.map (·.shortName)).Nodup) :
    ∃ c, new items = .ok c ∧ ∀ name d, c.get name = some d ↔ d ∈ items ∧ d.shortName = name := by
  obtain ⟨acc, h, hspec⟩ := newGo_of_nodup ∅ hn fun _ _ ↦ AList.not_mem_empty _
  refine ⟨⟨acc⟩, by rw [new, h]; rfl, fun name d ↦ ?_⟩
  simpa [get, AList.lookup_empty] using hspec name d

theorem nodup_of_new_ok {c : ClientItemManager} (hc : new items = .ok c) :
    (items.map (·.shortName)).Nodup := by
  cases h : newGo ∅ items with
  | ok acc => exact (nodup_of_newGo_ok h).1
  | error e => rw [new, h] at hc; cases hc

/-- **What `ClientItemManager::new` builds.** It returns `Ok` exactly when the short names of the
definitions are distinct; its `get` then returns, for each name, the definition with that short
name, and nothing for other names. An error it returns is the already-registered error of one of
the short names. -/
theorem client_item_manager_new_spec (items : List ItemDef) :
    ((∃ c, new items = .ok c) ↔ (items.map (·.shortName)).Nodup) ∧
      (∀ c, new items = .ok c → ∀ name d, c.get name = some d ↔ d ∈ items ∧ d.shortName = name) ∧
      ∀ e, new items = .error e → ∃ d ∈ items, e = alreadyRegistered d.shortName := by
  refine ⟨⟨fun ⟨_, hc⟩ ↦ nodup_of_new_ok hc, fun hn ↦ (new_of_nodup hn).imp fun _ ↦ And.left⟩,
    fun c hc ↦ ?_, fun e he ↦ ?_⟩
  · obtain ⟨c', hc', hget⟩ := new_of_nodup (nodup_of_new_ok hc)
    rw [hc] at hc'
    cases hc'
    exact hget
  · cases h : newGo ∅ items with
    | ok acc => rw [new, h] at he; cases he
    | error e' =>
      rw [new, h] at he
      cases he
      exact newGo_error h

/-- Two definitions of the same short name cannot both be sent. -/
example :
    new [⟨"dirt", some (.stack 256)⟩, ⟨"dirt", some (.stack 64)⟩] =
      .error (alreadyRegistered "dirt") := rfl

end ClientItemManager

open ItemManager ClientItemManager

/-- **The client's registry agrees with the server's.** After any sequence of `register_item`
calls from `ItemManager::new`, whichever of them failed, a client built from the server's
registered definitions, sent in any order, is built without error, and its `get` returns for
every name what the server's `get_item` returns, as a definition. -/
theorem client_registry_agrees_with_server (items : List Item) {defs : List ItemDef}
    (hdefs : defs.Perm ((registerEach items ItemManager.new).registeredItems.map (·.proto))) :
    ∃ c, ClientItemManager.new defs = .ok c ∧
      ∀ name, c.get name = ((registerEach items ItemManager.new).getItem name).map (·.proto) := by
  have hk := keyed_new.registerEach items
  have hn : (defs.map (·.shortName)).Nodup := by
    rw [(hdefs.map _).nodup_iff, hk.map_shortName]
    exact AList.keys_nodup _
  obtain ⟨c, hc, hget⟩ := new_of_nodup hn
  refine ⟨c, hc, fun name ↦ Option.ext fun d ↦ ?_⟩
  show c.get name = some d ↔ _ = some d
  rw [hget, hdefs.mem_iff]
  exact hk.mem_registered_iff

/-- Dirt registered twice, the second time as a tool, and stone: the second dirt is refused, and
the client is sent stone before dirt. -/
theorem client_registry_agrees_with_server_dirt :
    ∃ c, ClientItemManager.new [⟨"stone", some (.stack 256)⟩, ⟨"dirt", some (.stack 256)⟩] =
        .ok c ∧
      ∀ name, c.get name = ((registerEach [⟨⟨"dirt", some (.stack 256)⟩⟩,
        ⟨⟨"dirt", some (.wear 100)⟩⟩, ⟨⟨"stone", some (.stack 256)⟩⟩] ItemManager.new).getItem
          name).map (·.proto) :=
  client_registry_agrees_with_server _ (by decide)

end Cuberef
