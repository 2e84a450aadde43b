import Mathlib

/-! UTF-8 as `String.utf8EncodeChar` writes it is a prefix code: the lead byte of a
character says how many bytes it has, and the bytes give back its code point. So the bytes
of a text, `str::as_bytes`, determine the text. -/
namespace SealVault.Utf8

/-- `str::as_bytes`: the UTF-8 encoding of a text. -/
def asBytes (s : String) : List UInt8 := s.data.flatMap String.utf8EncodeChar

theorem asBytes_eq_toUTF8 (s : String) : asBytes s = s.toUTF8.data.toList := rfl

private theorem lor_tag : (∀ x, x < 64 → x ||| 0x80 = x + 0x80) ∧
    (∀ x, x < 32 → x ||| 0xc0 = x + 0xc0) ∧ (∀ x, x < 16 → x ||| 0xe0 = x + 0xe0) ∧
    (∀ x, x < 8 → x ||| 0xf0 = x + 0xf0) := by decide

private theorem toNat_shiftRight (v k : UInt32) (hk : k.toNat < 32) :
    (v >>> k).toNat = v.toNat / 2 ^ k.toNat := by
  have : (UInt32.mod k 32).toNat = k.toNat := by
    show (k.toBitVec % (32 : UInt32).toBitVec).toNat = _
    rw [BitVec.toNat_umod]
    exact Nat.mod_eq_of_lt hk
  show (v.toBitVec >>> (UInt32.mod k 32).toBitVec.toNat).toNat = _
  rw [BitVec.toNat_ushiftRight, Nat.shiftRight_eq_div_pow]
  exact congrArg _ (congrArg _ this)

private theorem toNat_toUInt8 (v : UInt32) : v.toUInt8.toNat = v.toNat % 256 := by
  simp [UInt32.toUInt8, UInt8.toNat, Nat.toUInt8, UInt8.ofNat]

/-- One byte of the encoding: `k` low bits of `v`, under tag bits. -/
private theorem byte_toNat (v : UInt32) (k : Nat) (m t : UInt8) (hk : k ≤ 6)
    (hm : m.toNat = 2 ^ k - 1) (ht : ∀ x, x < 2 ^ k → x ||| t.toNat = x + t.toNat) :
    ((v.toUInt8 &&& m) ||| t).toNat = v.toNat % 2 ^ k + t.toNat := by
  have h256 : 2 ^ k ∣ 256 := (Nat.pow_dvd_pow 2 hk).trans (by norm_num)
  have hor : ((v.toUInt8 &&& m) ||| t).toNat = (v.toUInt8 &&& m).toNat ||| t.toNat :=
    BitVec.toNat_or _ _
  rw [hor, UInt8.and_toNat, hm, Nat.and_pow_two_sub_one_eq_mod, toNat_toUInt8,
    Nat.mod_mod_of_dvd _ h256]
  exact ht _ (Nat.mod_lt _ (by positivity))

/-- The bytes of a character, as numbers. -/
theorem utf8EncodeChar_toNat (c : Char) :
    (String.utf8EncodeChar c).map UInt8.toNat =
      if c.toNat ≤ 0x7f then [c.toNat]
      else if c.toNat ≤ 0x7ff then [c.toNat / 64 % 32 + 0xc0, c.toNat % 64 + 0x80]
      else if c.toNat ≤ 0xffff then
        [c.toNat / 4096 % 16 + 0xe0, c.toNat / 64 % 64 + 0x80, c.toNat % 64 + 0x80]
      else [c.toNat / 262144 % 8 + 0xf0, c.toNat / 4096 % 64 + 0x80, c.toNat / 64 % 64 + 0x80,
        c.toNat % 64 + 0x80] := by
  obtain ⟨t80, tc0, te0, tf0⟩ := lor_tag
  have s6 : (c.val >>> 6).toNat = c.toNat / 64 := toNat_shiftRight _ 6 (by decide)
  have s12 : (c.val >>> 12).toNat = c.toNat / 4096 := toNat_shiftRight _ 12 (by decide)
  have s18 : (c.val >>> 18).toNat = c.toNat / 262144 := toNat_shiftRight _ 18 (by decide)
  have b6 : ∀ v : UInt32, ((v.toUInt8 &&& 0x3f) ||| 0x80).toNat = v.toNat % 64 + 0x80 :=
    fun v => byte_toNat v 6 _ _ (by norm_num) rfl t80
  have b5 : ∀ v : UInt32, ((v.toUInt8 &&& 0x1f) ||| 0xc0).toNat = v.toNat % 32 + 0xc0 :=
    fun v => byte_toNat v 5 _ _ (by norm_num) rfl tc0
  have b4 : ∀ v : UInt32, ((v.toUInt8 &&& 0x0f) ||| 0xe0).toNat = v.toNat % 16 + 0xe0 :=
    fun v => byte_toNat v 4 _ _ (by norm_num) rfl te0
  have b3 : ∀ v : UInt32, ((v.toUInt8 &&& 0x07) ||| 0xf0).toNat = v.toNat % 8 + 0xf0 :=
    fun v => byte_toNat v 3 _ _ (by norm_num) rfl tf0
  have hc : c.val.toNat = c.toNat := rfl
  have c1 : c.val ≤ 0x7f ↔ c.toNat ≤ 0x7f := Iff.rfl
  have c2 : c.val ≤ 0x7ff ↔ c.toNat ≤ 0x7ff := Iff.rfl
  have c3 : c.val ≤ 0xffff ↔ c.toNat ≤ 0xffff := Iff.rfl
  simp only [String.utf8EncodeChar, c1, c2, c3]
  split_ifs <;> simp only [List.map_cons, List.map_nil, b6, b5, b4, b3, s6, s12, s18,
    toNat_toUInt8, hc, List.cons.injEq, and_true]
  -- only the one-byte case is left: `c.toNat % 256 = c.toNat`
  omega

theorem toNat_lt (c : Char) : c.toNat < 0x110000 := by
  have := c.valid
  simp only [UInt32.isValidChar, Nat.isValidChar] at this
  show c.val.toNat < _
  omega

/-- Reads one code point back from byte values, the lead byte giving the length. -/
def decodeChar : List Nat → Option (Nat × List Nat)
  | [] => none
  | b :: rest =>
    if b < 0x80 then some (b, rest)
    else if b < 0xe0 then
      match rest with
      | b₁ :: rest => some ((b - 0xc0) * 64 + (b₁ - 0x80), rest)
      | [] => none
    else if b < 0xf0 then
      match rest with
      | b₁ :: b₂ :: rest => some ((b - 0xe0) * 4096 + (b₁ - 0x80) * 64 + (b₂ - 0x80), rest)
      | _ => none
    else
      match rest with
      | b₁ :: b₂ :: b₃ :: rest =>
        some ((b - 0xf0) * 262144 + (b₁ - 0x80) * 4096 + (b₂ - 0x80) * 64 + (b₃ - 0x80), rest)
      | _ => none

theorem decodeChar_utf8EncodeChar (c : Char) (r : List Nat) :
    decodeChar ((String.utf8EncodeChar c).map UInt8.toNat ++ r) = some (c.toNat, r) := by
  have := toNat_lt c
  rw [utf8EncodeChar_toNat]
  split_ifs with h1 h2 h3 <;>
    simp only [List.cons_append, List.nil_append, decodeChar, Nat.add_sub_cancel]
  · rw [if_pos (by omega)]
  · rw [if_neg (by omega), if_pos (by omega), Option.some.injEq, Prod.mk.injEq]
    exact ⟨by omega, rfl⟩
  · rw [if_neg (by omega), if_neg (by omega), if_pos (by omega), Option.some.injEq, Prod.mk.injEq]
    exact ⟨by omega, rfl⟩
  · rw [if_neg (by omega), if_neg (by omega), if_neg (by omega), Option.some.injEq,
      Prod.mk.injEq]
    exact ⟨by omega, rfl⟩

/-- UTF-8 is a prefix code. -/
theorem utf8EncodeChar_append_inj {c d : Char} {r r' : List UInt8}
    (h : String.utf8EncodeChar c ++ r = String.utf8EncodeChar d ++ r') : c = d ∧ r = r' := by
  have hn := congrArg (fun bs => decodeChar (bs.map UInt8.toNat)) h
  simp only [List.map_append, decodeChar_utf8EncodeChar, Option.some.injEq, Prod.mk.injEq] at hn
  obtain rfl : c = d := Char.ext (UInt32.toNat.inj hn.1)
  exact ⟨rfl, List.append_cancel_left h⟩

/-- An ASCII character is its own byte. -/
theorem toNat_of_mem_utf8EncodeChar {c : Char} (hc : c.toNat ≤ 0x7f) {x : UInt8}
    (hx : x ∈ String.utf8EncodeChar c) : x.toNat = c.toNat := by
  have := utf8EncodeChar_toNat c
  rw [if_pos hc] at this
  simpa [this] using List.mem_map_of_mem UInt8.toNat hx

theorem utf8EncodeChar_ne_nil (c : Char) : String.utf8EncodeChar c ≠ [] := by
  rw [← List.length_pos, String.length_utf8EncodeChar]
  exact Char.utf8Size_pos c

theorem flatMap_utf8EncodeChar_inj : ∀ {s t : List Char},
    s.flatMap String.utf8EncodeChar = t.flatMap String.utf8EncodeChar → s = t
  | [], [], _ => rfl
  | [], d :: t, h => by simp [utf8EncodeChar_ne_nil] at h
  | c :: s, [], h => by simp [utf8EncodeChar_ne_nil] at h
  | c :: s, d :: t, h => by
    simp only [List.flatMap_cons] at h
    obtain ⟨rfl, h'⟩ := utf8EncodeChar_append_inj h
    rw [flatMap_utf8EncodeChar_inj h']

/-- A text is determined by its bytes. -/
theorem asBytes_inj {s t : String} (h : asBytes s = asBytes t) : s = t :=
  String.ext (flatMap_utf8EncodeChar_inj h)

end SealVault.Utf8
