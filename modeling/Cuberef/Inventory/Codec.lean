import Cuberef.Inventory

/-!
# The inventory record, and the client's reading of it

`Inventory::to_proto` writes an inventory as an `items_proto::Inventory` record, the server reads
it back with `Inventory::from_proto`, and the client reads the same record with
`ClientInventory::from_proto` (`cuberef_client/src/game_state/items.rs`).

* **The two readers agree on the slots.** The client's closure, an empty name to `None` and
  anything else kept, is `ItemStack::from_proto` slot by slot (`fromProto_contents`); the client
  checks no shape.
* **Server round trip.** A record written from an inventory whose slot count is `height * width`,
  positive and below `2 ^ 32`, and whose stacks are all named, reads back as the same inventory
  under any key (`Inventory.fromProto_toProto`). The bound is `from_proto`'s `checked_mul`, and
  every inventory the code holds meets it (`Inventory.Built.length_lt`): its slots are those of
  one `Inventory::new` or `from_proto` built, both of which check the product, and
  `contents_mut` hands out a slice, whose length cannot change.
* **Record round trip.** A record `from_proto` accepts is written back as it was, provided every
  entry with an empty name is the sentinel `to_proto` writes for an empty slot.
-/

namespace Cuberef

/-- `ClientInventory`: the dimensions of the record, and its slots (the field `stacks`, read
through `contents()`; `stacks` is a keyword here). -/
structure ClientInventory where
  dimensions : Nat × Nat
  contents : List (Option ItemStack)
deriving DecidableEq

namespace ClientInventory

/-- `ClientInventory::from_proto`: `(height, width)`, and each entry with an empty name read as
an empty slot. -/
def fromProto (proto : InventoryProto) : ClientInventory where
  dimensions := (proto.height, proto.width)
  contents := proto.contents.map fun x ↦ if x.itemName = "" then none else some x

/-- The client's slots are the server's `ItemStack::from_proto` of each entry. -/
theorem fromProto_contents (proto : InventoryProto) :
    (fromProto proto).contents = proto.contents.map ItemStack.fromProto := rfl

end ClientInventory

namespace Inventory

/-- Writing a slot and reading it back with `ItemStack::from_proto` gives the slot, for a named
stack or an empty slot. -/
theorem slotToProto_fromProto {x : ItemStack} (h : x.itemName = "" → x = ItemStack.sentinel) :
    slotToProto (ItemStack.fromProto x) = x := by
  unfold ItemStack.fromProto
  split_ifs with hx
  · exact (h hx).symm
  · rfl

/-- **A record `from_proto` accepts is written back as it was**, when its empty-name entries are
the sentinel. -/
theorem toProto_of_fromProto {p : InventoryProto} {key : InventoryKey} {inv : Inventory}
    (h : fromProto p key = .ok inv)
    (hs : ∀ x ∈ p.contents, x.itemName = "" → x = ItemStack.sentinel) :
    inv.toProto = p := by
  obtain ⟨-, rfl⟩ := fromProto_eq_ok.mp h
  have hc : (p.contents.map ItemStack.fromProto).map slotToProto = p.contents := by
    rw [List.map_map]
    exact (List.map_congr_left fun x hx ↦ slotToProto_fromProto (hs x hx)).trans (List.map_id _)
  simp only [toProto, hc]

/-- An inventory the code can hold: the slots of one that `new` or `from_proto` built, rewritten
in place through `contents_mut` (a slice, so their number is fixed), under any `dimensions` (a
public field). -/
def Built (inv : Inventory) : Prop :=
  ∃ inv₀ : Inventory, ((∃ dimensions id, new dimensions id = .ok inv₀) ∨
    ∃ p key, fromProto p key = .ok inv₀) ∧ inv.contents.length = inv₀.contents.length

/-- Both constructors check `height * width` against a `u32`, so an inventory the code holds has
fewer than `2 ^ 32` slots. -/
theorem Built.length_lt {inv : Inventory} (h : inv.Built) : inv.contents.length < 2 ^ 32 := by
  obtain ⟨inv₀, ⟨dimensions, id, hn⟩ | ⟨p, key, hp⟩, hlen⟩ := h
  · obtain ⟨-, -, hlt, rfl⟩ := new_eq_ok.mp hn
    rwa [hlen, List.length_replicate]
  · obtain ⟨⟨hlt, heq, -⟩, rfl⟩ := fromProto_eq_ok.mp hp
    rwa [hlen, List.length_map, ← heq]

end Inventory

open Inventory

/-- **The inventory record round-trips, and the client reads what the server wrote.** An
inventory the code holds, whose slot count is `height * width` and positive, with every stack
named, reads back through `Inventory::from_proto` under any key `k` as itself with key `k`; the
client reads its dimensions and its slots. Conversely, a record that `from_proto` accepts, whose
empty-name entries are the sentinel, is written back as it was. -/
theorem inventory_codec_round_trips :
    (∀ (inv : Inventory) (key : InventoryKey), inv.Built →
      inv.dimensions.1 * inv.dimensions.2 = inv.contents.length → 0 < inv.contents.length →
        (∀ s ∈ inv.contents, Named s) →
        fromProto inv.toProto key = .ok { inv with key } ∧
          ClientInventory.fromProto inv.toProto = ⟨inv.dimensions, inv.contents⟩) ∧
      ∀ (p : InventoryProto) (key : InventoryKey) (inv : Inventory), fromProto p key = .ok inv →
        (∀ x ∈ p.contents, x.itemName = "" → x = ItemStack.sentinel) → inv.toProto = p := by
  refine ⟨fun inv key hbuilt hdim hpos hnamed ↦ ?_, fun _ _ _ h hs ↦ toProto_of_fromProto h hs⟩
  have hr : inv.Readable :=
    ⟨⟨by rw [Nat.mul_comm, hdim]; exact hbuilt.length_lt, by rw [Nat.mul_comm, hdim], hpos⟩, hnamed⟩
  refine ⟨fromProto_toProto hr key, ?_⟩
  simp only [ClientInventory.fromProto, ClientInventory.mk.injEq, toProto_height, toProto_width,
    Prod.mk.eta, true_and]
  exact toProto_contents_fromProto hnamed

end Cuberef
