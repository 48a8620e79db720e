import ReferenceGraph.Proofs.Lists.Joined
import ReferenceGraph.Proofs.Text.Ascii

/-!
# Encoded text

Text that has been encoded is decoded to itself. The bytes of a character carry its number in base
64, and the bounds that the decoder sets for the byte after the first hold for them: the forms that
they rule out are those of a number that has a shorter form or belongs to no character.

* `lead?_two`, `lead?_three`, `lead?_four`: what the first byte of a character leads to, and that
  the next one keeps to its bounds.
* `decode_two`, `decode_three`, `decode_four`: the bytes of a number. `decode_encodeChar_append` is
  one character and `decode_encode` the text.
* `mem_encode_iff`: an ASCII byte is among the bytes of a text exactly if its character is in it.
-/

namespace ReferenceGraph.Utf8

/-! ## Bytes that continue a character -/

/-- The byte that carries the last six bits of a number behind the first byte of a character. -/
def following (n : Nat) : UInt8 := .ofNat (n % 64 + 0x80)

theorem toNat_following (n : Nat) : (following n).toNat = n % 64 + 0x80 := by
  rw [following, UInt8.toNat_ofNat', Nat.mod_eq_of_lt (by omega)]

theorem le_following {low : UInt8} {n : Nat} (h : low.toNat ≤ n % 64 + 0x80) :
    low ≤ following n := by
  rwa [UInt8.le_iff_toNat_le, toNat_following]

theorem following_le {high : UInt8} {n : Nat} (h : n % 64 + 0x80 ≤ high.toNat) :
    following n ≤ high := by
  rwa [UInt8.le_iff_toNat_le, toNat_following]

/-- The bounds that hold behind the second byte of a character. -/
theorem following_within (n : Nat) : 0x80 ≤ following n ∧ following n ≤ 0xBF :=
  ⟨le_following (Nat.le_add_left _ _), following_le (by simp; omega)⟩

section Following

variable {bits n : Nat} {low high : UInt8}

theorem decodeFrom_last (hlow : low ≤ following n) (hhigh : following n ≤ high) (bs : Bytes) :
    decodeFrom (.inside bits low high 0) (following n :: bs) =
      Char.ofNat (bits * 64 + n % 64) :: decode bs := by
  simp only [decodeFrom, step, hlow, hhigh, and_self, if_true, toNat_following, Nat.add_sub_cancel]
  rfl

theorem decodeFrom_following (hlow : low ≤ following n) (hhigh : following n ≤ high) (more : Nat)
    (bs : Bytes) :
    decodeFrom (.inside bits low high (more + 1)) (following n :: bs) =
      decodeFrom (.inside (bits * 64 + n % 64) 0x80 0xBF more) bs := by
  simp only [decodeFrom, step, hlow, hhigh, and_self, if_true, toNat_following, Nat.add_sub_cancel]
  rfl

end Following

/-! ## The first byte of a character -/

theorem decode_lead {b : UInt8} {s : State} (hb : 0x80 ≤ b.toNat) (h : lead? b = some s)
    (bs : Bytes) : decode (b :: bs) = decodeFrom s bs := by
  have hascii : ¬b < 0x80 := by
    rw [UInt8.lt_iff_toNat_lt]
    exact Nat.not_lt.mpr hb
  simp only [decode, decodeFrom, step, opening, hascii, if_false, h, List.nil_append]

theorem lead?_eq (b : UInt8) :
    lead? b =
      if b.toNat < 0xC2 then none
      else if b.toNat < 0xE0 then some (.inside (b.toNat - 0xC0) 0x80 0xBF 0)
      else if b.toNat = 0xE0 then some (.inside 0x0 0xA0 0xBF 1)
      else if b.toNat = 0xED then some (.inside 0xD 0x80 0x9F 1)
      else if b.toNat < 0xF0 then some (.inside (b.toNat - 0xE0) 0x80 0xBF 1)
      else if b.toNat = 0xF0 then some (.inside 0x0 0x90 0xBF 2)
      else if b.toNat < 0xF4 then some (.inside (b.toNat - 0xF0) 0x80 0xBF 2)
      else if b.toNat = 0xF4 then some (.inside 0x4 0x80 0x8F 2)
      else none := by
  simp only [lead?, UInt8.lt_iff_toNat_lt, ← UInt8.toNat_inj, UInt8.reduceToNat]

theorem toNat_ofNat_byte {n : Nat} (h : n < 0x100) : (UInt8.ofNat n).toNat = n := by
  rw [UInt8.toNat_ofNat', Nat.mod_eq_of_lt h]

variable {v : Nat}

theorem lead?_two (hlow : 0x80 ≤ v) (hhigh : v ≤ 0x7FF) :
    lead? (.ofNat (v / 64 % 32 + 0xC0)) = some (.inside (v / 64) 0x80 0xBF 0) := by
  rw [lead?_eq, toNat_ofNat_byte (by omega), if_neg (by omega), if_pos (by omega),
    show v / 64 % 32 + 0xC0 - 0xC0 = v / 64 by omega]

/-- Three bytes: the next byte keeps out the numbers below 0x800 and those of the surrogates. -/
theorem lead?_three (hlow : 0x800 ≤ v) (hhigh : v ≤ 0xFFFF) (hv : v < 0xD800 ∨ 0xDFFF < v) :
    ∃ low high, lead? (.ofNat (v / 4096 % 16 + 0xE0)) = some (.inside (v / 4096) low high 1) ∧
      low ≤ following (v / 64) ∧ following (v / 64) ≤ high := by
  rw [lead?_eq, toNat_ofNat_byte (by omega), if_neg (by omega), if_neg (by omega)]
  by_cases hfirst : v / 4096 = 0
  · rw [if_pos (by omega), hfirst]
    exact ⟨_, _, rfl, le_following (by simp; omega), following_le (by simp; omega)⟩
  · rw [if_neg (by omega)]
    by_cases hsurrogate : v / 4096 = 0xD
    · rw [if_pos (by omega), hsurrogate]
      exact ⟨_, _, rfl, le_following (by simp), following_le (by simp; omega)⟩
    · rw [if_neg (by omega), if_pos (by omega),
        show v / 4096 % 16 + 0xE0 - 0xE0 = v / 4096 by omega]
      exact ⟨_, _, rfl, le_following (by simp), following_le (by simp; omega)⟩

/-- Four bytes: the next byte keeps out the numbers below 0x10000 and those beyond 0x10FFFF. -/
theorem lead?_four (hlow : 0x10000 ≤ v) (hhigh : v < 0x110000) :
    ∃ low high, lead? (.ofNat (v / 262144 % 8 + 0xF0)) = some (.inside (v / 262144) low high 2) ∧
      low ≤ following (v / 4096) ∧ following (v / 4096) ≤ high := by
  rw [lead?_eq, toNat_ofNat_byte (by omega), if_neg (by omega), if_neg (by omega),
    if_neg (by omega), if_neg (by omega), if_neg (by omega)]
  by_cases hfirst : v / 262144 = 0
  · rw [if_pos (by omega), hfirst]
    exact ⟨_, _, rfl, le_following (by simp; omega), following_le (by simp; omega)⟩
  · rw [if_neg (by omega)]
    by_cases hlast : v / 262144 = 4
    · rw [if_neg (by omega), if_pos (by omega), hlast]
      exact ⟨_, _, rfl, le_following (by simp), following_le (by simp; omega)⟩
    · rw [if_pos (by omega), show v / 262144 % 8 + 0xF0 - 0xF0 = v / 262144 by omega]
      exact ⟨_, _, rfl, le_following (by simp), following_le (by simp; omega)⟩

/-! ## Characters and text -/

/-- A number in two bytes. -/
theorem decode_two (hlow : 0x80 ≤ v) (hhigh : v ≤ 0x7FF) (bs : Bytes) :
    decode (.ofNat (v / 64 % 32 + 0xC0) :: following v :: bs) = Char.ofNat v :: decode bs := by
  have hlast := following_within v
  rw [decode_lead (by rw [toNat_ofNat_byte] <;> omega) (lead?_two hlow hhigh),
    decodeFrom_last hlast.1 hlast.2, show v / 64 * 64 + v % 64 = v by omega]

theorem decode_three (hlow : 0x800 ≤ v) (hhigh : v ≤ 0xFFFF) (hv : v < 0xD800 ∨ 0xDFFF < v)
    (bs : Bytes) :
    decode (.ofNat (v / 4096 % 16 + 0xE0) :: following (v / 64) :: following v :: bs) =
      Char.ofNat v :: decode bs := by
  obtain ⟨low, high, hlead, hnext, hnext'⟩ := lead?_three hlow hhigh hv
  have hlast := following_within v
  rw [decode_lead (by rw [toNat_ofNat_byte] <;> omega) hlead, decodeFrom_following hnext hnext',
    decodeFrom_last hlast.1 hlast.2, show (v / 4096 * 64 + v / 64 % 64) * 64 + v % 64 = v by omega]

theorem decode_four (hlow : 0x10000 ≤ v) (hhigh : v < 0x110000) (bs : Bytes) :
    decode (.ofNat (v / 262144 % 8 + 0xF0) :: following (v / 4096) :: following (v / 64) ::
      following v :: bs) = Char.ofNat v :: decode bs := by
  obtain ⟨low, high, hlead, hnext, hnext'⟩ := lead?_four hlow hhigh
  have hthird := following_within (v / 64)
  have hlast := following_within v
  rw [decode_lead (by rw [toNat_ofNat_byte] <;> omega) hlead, decodeFrom_following hnext hnext',
    decodeFrom_following hthird.1 hthird.2, decodeFrom_last hlast.1 hlast.2,
    show ((v / 262144 * 64 + v / 4096 % 64) * 64 + v / 64 % 64) * 64 + v % 64 = v by omega]

/-- The bytes of a character are decoded to it, whatever follows them. -/
theorem decode_encodeChar_append (c : Char) (bs : Bytes) :
    decode (String.utf8EncodeChar c ++ bs) = c :: decode bs := by
  have hvalid : c.val.toNat < 0xD800 ∨ 0xDFFF < c.val.toNat ∧ c.val.toNat < 0x110000 := c.valid
  have hchar : Char.ofNat c.val.toNat = c := Char.ofNat_toNat c
  unfold String.utf8EncodeChar
  generalize c.val.toNat = v at hvalid hchar
  subst hchar
  dsimp only
  split
  · next hone =>
    have hv : (UInt8.ofNat v).toNat = v := toNat_ofNat_byte (by omega)
    have hascii : UInt8.ofNat v < 0x80 := by
      rw [UInt8.lt_iff_toNat_lt, hv]
      exact Nat.lt_succ_of_le hone
    have hdecode := decode_append_ascii hascii [] bs
    rwa [hv] at hdecode
  · next hone =>
    split
    · next htwo => exact decode_two (by omega) htwo bs
    · next htwo =>
      split
      · next hthree => exact decode_three (by omega) hthree (by omega) bs
      · next hthree => exact decode_four (by omega) (by omega) bs

@[simp] theorem decode_encode (cs : List Char) : decode (encode cs) = cs := by
  induction cs with
  | nil => rfl
  | cons c cs ih => rw [encode, List.flatMap_cons, ← encode, decode_encodeChar_append, ih]

@[simp] theorem decodeString_encodeString (s : String) : decodeString (encodeString s) = s := by
  rw [decodeString, encodeString, decode_encode, String.ofList_toList]

theorem encode_append (cs ds : List Char) : encode (cs ++ ds) = encode cs ++ encode ds :=
  List.flatMap_append

theorem encode_intercalate (c : Char) (texts : List (List Char)) :
    encode ([c].intercalate texts) = (encode [c]).intercalate (texts.map encode) :=
  apply_intercalate rfl (fun cs ds => by rw [List.append_cons, encode_append, encode_append]) texts

theorem mem_encode_iff {a : UInt8} (ha : a < 0x80) (hzero : a ≠ 0) {cs : List Char} :
    a ∈ encode cs ↔ Char.ofNat a.toNat ∈ cs := by
  constructor
  · intro hmem
    obtain ⟨xs, ys, hsplit⟩ := List.append_of_mem hmem
    rw [← decode_encode cs, hsplit, decode_append_ascii ha]
    exact List.mem_append_right _ List.mem_cons_self
  · intro hmem
    rw [← decode_encode cs] at hmem
    exact mem_of_mem_decode ha hzero hmem

end ReferenceGraph.Utf8
