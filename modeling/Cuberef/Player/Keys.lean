import Cuberef.Player

/-!
# Distinct names have distinct player records

`PlayerManager::db_key` makes a player's key from `player.as_bytes()`, the UTF-8 encoding of the
name, and stores every player's record under it. Two players share a record exactly when their
keys are equal; this module shows that this happens only for equal names (`dbKey_injective`),
which, with `key_spaces_never_collide`, is what keeps one player's writes out of every other
player's record and every inventory.

## How UTF-8 is injective

`String.utf8EncodeChar` writes a code point `v` as one to four bytes with shifts and masks.
`encodeNat` is the same sequence as numbers: a lead byte that announces the length
(`0xxxxxxx`, `110xxxxx`, `1110xxxx`, `11110xxx`) and six-bit continuation bytes (`10xxxxxx`).

* `map_toNat_utf8EncodeChar`: the bytes of `utf8EncodeChar` are those of `encodeNat`; each
  masked-and-tagged byte is a sum (`tag_or_eq_add`), checked once for every value the mask lets
  through.
* `length_encodeNat`: the lead byte fixes the length, so an encoding is never a proper prefix of
  another (`encodeNat_append_inj`).
* `encodeNat_inj`: within one length, the digits rebuild `v` (`eq_of_div_mod`).
* `toUTF8_injective`: a string's bytes are its characters' encodings in turn, and a prefix-free
  code is injective on lists.
-/

namespace Cuberef

namespace Utf8

/-! ### The encoding as numbers -/

/-- The bytes `String.utf8EncodeChar` writes for the code point `v`, as numbers. -/
def encodeNat (v : Nat) : List Nat :=
  if v ≤ 0x7f then [v]
  else if v ≤ 0x7ff then [0xc0 + v / 64 % 32, 0x80 + v % 64]
  else if v ≤ 0xffff then [0xe0 + v / 4096 % 16, 0x80 + v / 64 % 64, 0x80 + v % 64]
  else [0xf0 + v / 262144 % 8, 0x80 + v / 4096 % 64, 0x80 + v / 64 % 64, 0x80 + v % 64]

/-- The length of a sequence, read off its lead byte. -/
def leadLength (b : Nat) : Nat :=
  if b < 0x80 then 1 else if b < 0xe0 then 2 else if b < 0xf0 then 3 else 4

/-- The four lengths of an encoding. -/
theorem encodeNat_cases (v : Nat) :
    v ≤ 0x7f ∧ encodeNat v = [v] ∨
      0x7f < v ∧ v ≤ 0x7ff ∧ encodeNat v = [0xc0 + v / 64 % 32, 0x80 + v % 64] ∨
      0x7ff < v ∧ v ≤ 0xffff ∧
        encodeNat v = [0xe0 + v / 4096 % 16, 0x80 + v / 64 % 64, 0x80 + v % 64] ∨
      0xffff < v ∧ encodeNat v =
        [0xf0 + v / 262144 % 8, 0x80 + v / 4096 % 64, 0x80 + v / 64 % 64, 0x80 + v % 64] := by
  unfold encodeNat
  by_cases h1 : v ≤ 0x7f
  · exact .inl ⟨h1, if_pos h1⟩
  rw [if_neg h1]
  by_cases h2 : v ≤ 0x7ff
  · exact .inr (.inl ⟨Nat.lt_of_not_le h1, h2, if_pos h2⟩)
  rw [if_neg h2]
  by_cases h3 : v ≤ 0xffff
  · exact .inr (.inr (.inl ⟨Nat.lt_of_not_le h2, h3, if_pos h3⟩))
  · exact .inr (.inr (.inr ⟨Nat.lt_of_not_le h3, if_neg h3⟩))

/-- The lead byte announces the length. -/
theorem length_encodeNat (v : Nat) :
    (encodeNat v).length = leadLength ((encodeNat v).headD 0) := by
  rcases encodeNat_cases v with ⟨h1, e⟩ | ⟨h1, h2, e⟩ | ⟨h2, h3, e⟩ | ⟨h3, e⟩ <;> rw [e] <;>
    simp only [List.headD_cons, List.length_cons, List.length_nil, leadLength]
  · rw [if_pos (by omega)]
  · rw [if_neg (by omega), if_pos (by omega)]
  · rw [if_neg (by omega), if_neg (by omega), if_pos (by omega)]
  · rw [if_neg (by omega), if_neg (by omega), if_neg (by omega)]

theorem encodeNat_ne_nil (v : Nat) : encodeNat v ≠ [] := by
  rcases encodeNat_cases v with ⟨-, e⟩ | ⟨-, -, e⟩ | ⟨-, -, e⟩ | ⟨-, e⟩ <;> rw [e] <;>
    exact List.cons_ne_nil _ _

/-- A number is its quotient and remainder. -/
theorem eq_of_div_mod {v w : Nat} (n : Nat) (h1 : v / n = w / n) (h2 : v % n = w % n) : v = w := by
  rw [← Nat.div_add_mod v n, ← Nat.div_add_mod w n, h1, h2]

/-- The top digit, below its bound, is its own remainder. -/
theorem top_eq {v w n k : Nat} (hv : v < n * k) (hw : w < n * k) (h : v / n % k = w / n % k) :
    v / n = w / n := by
  rwa [Nat.mod_eq_of_lt (Nat.div_lt_of_lt_mul hv), Nat.mod_eq_of_lt (Nat.div_lt_of_lt_mul hw)] at h

/-- **Within a length, the digits rebuild the code point.** -/
theorem encodeNat_inj {v w : Nat} (hv : v < 0x110000) (hw : w < 0x110000)
    (h : encodeNat v = encodeNat w) : v = w := by
  rcases encodeNat_cases v with ⟨hv1, ev⟩ | ⟨hv1, hv2, ev⟩ | ⟨hv2, hv3, ev⟩ | ⟨hv3, ev⟩ <;>
  rcases encodeNat_cases w with ⟨hw1, ew⟩ | ⟨hw1, hw2, ew⟩ | ⟨hw2, hw3, ew⟩ | ⟨hw3, ew⟩ <;>
  rw [ev, ew] at h <;>
  simp only [List.cons.injEq, Nat.add_left_cancel_iff, and_true, List.nil_eq, reduceCtorEq,
    and_false] at h
  · exact h
  · exact eq_of_div_mod 64 (top_eq (n := 64) (k := 32) (Nat.lt_succ_of_le hv2)
      (Nat.lt_succ_of_le hw2) h.1) h.2
  · refine eq_of_div_mod 64 (eq_of_div_mod 64 ?_ h.2.1) h.2.2
    rw [Nat.div_div_eq_div_mul, Nat.div_div_eq_div_mul]
    exact top_eq (n := 4096) (k := 16) (Nat.lt_succ_of_le hv3) (Nat.lt_succ_of_le hw3) h.1
  · refine eq_of_div_mod 64 (eq_of_div_mod 64 (eq_of_div_mod 64 ?_ ?_) h.2.2.1) h.2.2.2
    · rw [Nat.div_div_eq_div_mul, Nat.div_div_eq_div_mul, Nat.div_div_eq_div_mul,
        Nat.div_div_eq_div_mul]
      exact top_eq (n := 262144) (k := 8) (hv.trans (by decide)) (hw.trans (by decide)) h.1
    · rw [Nat.div_div_eq_div_mul, Nat.div_div_eq_div_mul]
      exact h.2.1

/-- **No encoding is a proper prefix of another.** -/
theorem encodeNat_append_inj {v w : Nat} (hv : v < 0x110000) (hw : w < 0x110000)
    {r r' : List Nat} (h : encodeNat v ++ r = encodeNat w ++ r') : v = w := by
  have hhead : (encodeNat v).headD 0 = (encodeNat w).headD 0 := by
    obtain ⟨a, l, ea⟩ := List.exists_cons_of_ne_nil (encodeNat_ne_nil v)
    obtain ⟨b, l', eb⟩ := List.exists_cons_of_ne_nil (encodeNat_ne_nil w)
    rw [ea, eb, List.cons_append, List.cons_append, List.cons.injEq] at h
    rw [ea, eb, List.headD_cons, List.headD_cons, h.1]
  have hlen : (encodeNat v).length = (encodeNat w).length := by
    rw [length_encodeNat, length_encodeNat w, hhead]
  exact encodeNat_inj hv hw (List.append_inj h hlen).1

/-! ### The bytes `utf8EncodeChar` writes -/

theorem toNat_or (a b : UInt8) : (a ||| b).toNat = a.toNat ||| b.toNat := BitVec.toNat_or ..

theorem toNat_toUInt8 (v : UInt32) : v.toUInt8.toNat = v.toNat % 256 := BitVec.toNat_ofNat ..

theorem toNat_shiftRight (v k : UInt32) (hk : k.toNat < 32) :
    (v >>> k).toNat = v.toNat / 2 ^ k.toNat := by
  show (v.toBitVec >>> (UInt32.mod k 32).toBitVec.toNat).toNat = _
  rw [BitVec.toNat_ushiftRight, Nat.shiftRight_eq_div_pow]
  have : (UInt32.mod k 32).toBitVec.toNat = k.toNat % 32 := BitVec.toNat_umod ..
  rw [this, Nat.mod_eq_of_lt hk]
  rfl

/-- A tag over the bits its mask clears is added: checked for every value the mask lets
through. -/
theorem tag_or_eq_add : (∀ b < 32, b ||| 192 = 192 + b) ∧ (∀ b < 16, b ||| 224 = 224 + b) ∧
    (∀ b < 8, b ||| 240 = 240 + b) ∧ ∀ b < 64, b ||| 128 = 128 + b := by
  decide

theorem lead2 (a : Nat) : a % 256 &&& 31 ||| 192 = 192 + a % 32 := by
  rw [show (31 : Nat) = 2 ^ 5 - 1 from rfl, Nat.and_pow_two_sub_one_eq_mod,
    Nat.mod_mod_of_dvd _ (by decide)]
  exact tag_or_eq_add.1 _ (Nat.mod_lt _ (by decide))

theorem lead3 (a : Nat) : a % 256 &&& 15 ||| 224 = 224 + a % 16 := by
  rw [show (15 : Nat) = 2 ^ 4 - 1 from rfl, Nat.and_pow_two_sub_one_eq_mod,
    Nat.mod_mod_of_dvd _ (by decide)]
  exact tag_or_eq_add.2.1 _ (Nat.mod_lt _ (by decide))

theorem lead4 (a : Nat) : a % 256 &&& 7 ||| 240 = 240 + a % 8 := by
  rw [show (7 : Nat) = 2 ^ 3 - 1 from rfl, Nat.and_pow_two_sub_one_eq_mod,
    Nat.mod_mod_of_dvd _ (by decide)]
  exact tag_or_eq_add.2.2.1 _ (Nat.mod_lt _ (by decide))

theorem continuation (a : Nat) : a % 256 &&& 63 ||| 128 = 128 + a % 64 := by
  rw [show (63 : Nat) = 2 ^ 6 - 1 from rfl, Nat.and_pow_two_sub_one_eq_mod,
    Nat.mod_mod_of_dvd _ (by decide)]
  exact tag_or_eq_add.2.2.2 _ (Nat.mod_lt _ (by decide))

/-- **`utf8EncodeChar` writes `encodeNat`.** -/
theorem map_toNat_utf8EncodeChar (c : Char) :
    (String.utf8EncodeChar c).map UInt8.toNat = encodeNat c.val.toNat := by
  have h6 : (c.val >>> 6).toNat = c.val.toNat / 64 := toNat_shiftRight c.val 6 (by decide)
  have h12 : (c.val >>> 12).toNat = c.val.toNat / 4096 := toNat_shiftRight c.val 12 (by decide)
  have h18 : (c.val >>> 18).toNat = c.val.toNat / 262144 := toNat_shiftRight c.val 18 (by decide)
  have hk : (31 : UInt8).toNat = 31 ∧ (15 : UInt8).toNat = 15 ∧ (7 : UInt8).toNat = 7 ∧
      (63 : UInt8).toNat = 63 ∧ (192 : UInt8).toNat = 192 ∧ (224 : UInt8).toNat = 224 ∧
      (240 : UInt8).toNat = 240 ∧ (128 : UInt8).toNat = 128 :=
    ⟨rfl, rfl, rfl, rfl, rfl, rfl, rfl, rfl⟩
  unfold String.utf8EncodeChar encodeNat
  dsimp only
  by_cases h1 : c.val.toNat ≤ 127
  · rw [if_pos (show c.val ≤ 127 from h1), if_pos h1, List.map_singleton, toNat_toUInt8,
      Nat.mod_eq_of_lt (by omega)]
  rw [if_neg (show ¬ c.val ≤ 127 from h1), if_neg h1]
  by_cases h2 : c.val.toNat ≤ 2047
  · rw [if_pos (show c.val ≤ 2047 from h2), if_pos h2]
    simp only [List.map_cons, List.map_nil, toNat_or, UInt8.and_toNat, toNat_toUInt8, h6, hk,
      lead2, continuation]
  rw [if_neg (show ¬ c.val ≤ 2047 from h2), if_neg h2]
  by_cases h3 : c.val.toNat ≤ 65535
  · rw [if_pos (show c.val ≤ 65535 from h3), if_pos h3]
    simp only [List.map_cons, List.map_nil, toNat_or, UInt8.and_toNat, toNat_toUInt8, h6, h12, hk,
      lead3, continuation]
  · rw [if_neg (show ¬ c.val ≤ 65535 from h3), if_neg h3]
    simp only [List.map_cons, List.map_nil, toNat_or, UInt8.and_toNat, toNat_toUInt8, h6, h12,
      h18, hk, lead4, continuation]

/-! ### Strings -/

/-- A character's encoding followed by anything determines the character. -/
theorem utf8EncodeChar_append_inj {c d : Char} {r r' : List UInt8}
    (h : String.utf8EncodeChar c ++ r = String.utf8EncodeChar d ++ r') : c = d := by
  have hm := congrArg (List.map UInt8.toNat) h
  rw [List.map_append, List.map_append, map_toNat_utf8EncodeChar, map_toNat_utf8EncodeChar] at hm
  have hc := c.valid
  have hd := d.valid
  simp only [UInt32.isValidChar, Nat.isValidChar] at hc hd
  exact Char.ext (UInt32.toNat.inj (encodeNat_append_inj (by omega) (by omega) hm))

theorem utf8EncodeChar_ne_nil (c : Char) : String.utf8EncodeChar c ≠ [] :=
  List.ne_nil_of_length_pos (by rw [String.length_utf8EncodeChar]; exact c.utf8Size_pos)

theorem flatMap_utf8EncodeChar_inj : ∀ {l₁ l₂ : List Char},
    l₁.flatMap String.utf8EncodeChar = l₂.flatMap String.utf8EncodeChar → l₁ = l₂
  | [], [], _ => rfl
  | [], d :: _, h => by
    rw [List.flatMap_nil, List.flatMap_cons] at h
    exact absurd (List.append_eq_nil.mp h.symm).1 (utf8EncodeChar_ne_nil d)
  | c :: _, [], h => by
    rw [List.flatMap_nil, List.flatMap_cons] at h
    exact absurd (List.append_eq_nil.mp h).1 (utf8EncodeChar_ne_nil c)
  | c :: l₁, d :: l₂, h => by
    rw [List.flatMap_cons, List.flatMap_cons] at h
    obtain rfl := utf8EncodeChar_append_inj h
    rw [flatMap_utf8EncodeChar_inj (List.append_cancel_left h)]

/-- **UTF-8 is injective on strings.** -/
theorem toUTF8_injective : Function.Injective fun s : String ↦ s.toUTF8.data.toList :=
  fun _ _ h ↦ String.ext (flatMap_utf8EncodeChar_inj h)

end Utf8

namespace PlayerManager

/-- **Distinct names have distinct player records.** `db_key` is injective: two players' records
share a store key only when the players' names are equal. -/
theorem dbKey_injective : Function.Injective dbKey :=
  fun _ _ h ↦ Utf8.toUTF8_injective (KeySpace.makeKey_inj.mp h).2

end PlayerManager

end Cuberef
