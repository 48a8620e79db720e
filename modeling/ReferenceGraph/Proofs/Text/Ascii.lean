import Mathlib.Algebra.Group.Nat.Defs
import ReferenceGraph.Text.Utf8

/-!
# ASCII characters in decoded text

An ASCII character in a text comes from the byte of the same number, and from no longer sequence:
overlong forms are ill formed, and an ill-formed part is read as a character beyond ASCII. So
decoding makes no dots or line feeds that the bytes do not hold.

* `State.Beyond`: the character that a state is on the way to is beyond ASCII. `State.Beyond.step`
  keeps it.
* `mem_of_mem_step`: what one byte yields.
* `mem_of_mem_decode`: a byte whose character is in the text is one of the bytes.
-/

namespace ReferenceGraph.Utf8

theorem toNat_ofNat_of_isValidChar {n : Nat} (h : n.isValidChar) : (Char.ofNat n).toNat = n := by
  rw [Char.ofNat, dif_pos h]
  rfl

/-- The character of a number that none belongs to is the zero character. -/
theorem toNat_ofNat_eq_or (n : Nat) : (Char.ofNat n).toNat = n ∨ (Char.ofNat n).toNat = 0 := by
  by_cases h : n.isValidChar
  · exact .inl (toNat_ofNat_of_isValidChar h)
  · right
    rw [Char.ofNat, dif_neg h]
    rfl

/-- The least character that the sequence under way can become is beyond ASCII. -/
def State.Beyond : State → Prop
  | .boundary => True
  | .inside bits low _ more =>
    0x80 ≤ low.toNat ∧ 0x80 ≤ (bits * 64 + (low.toNat - 0x80)) * 64 ^ more

theorem State.Beyond.of_lead? {b : UInt8} {s : State} (h : lead? b = some s) : s.Beyond := by
  simp only [lead?, UInt8.lt_iff_toNat_lt, ← UInt8.toNat_inj, UInt8.reduceToNat] at h
  repeat' split at h
  all_goals cases h
  all_goals simp only [State.Beyond, UInt8.reduceToNat]
  all_goals omega

theorem opening_beyond (b : UInt8) : (opening b).2.Beyond := by
  unfold opening
  split
  · trivial
  · split
    · next s hs => exact .of_lead? hs
    · trivial

/-- The bits after a byte that continues the sequence are at least those that the state
announces. -/
theorem State.Beyond.le_bits {bits : Nat} {low high : UInt8} {more : Nat}
    (hs : (State.inside bits low high more).Beyond) {b : UInt8} (hb : low ≤ b) :
    0x80 ≤ (bits * 64 + (b.toNat - 0x80)) * 64 ^ more := by
  have hsub : low.toNat - 0x80 ≤ b.toNat - 0x80 :=
    Nat.sub_le_sub_right (UInt8.le_iff_toNat_le.mp hb) _
  exact Nat.le_trans hs.2 (Nat.mul_le_mul_right _ (Nat.add_le_add_left hsub _))

theorem State.Beyond.step {s : State} (hs : s.Beyond) (b : UInt8) : (step s b).2.Beyond := by
  cases s with
  | boundary => exact opening_beyond b
  | inside bits low high more =>
    simp only [Utf8.step]
    split
    · next hb =>
      cases more with
      | zero => trivial
      | succ more =>
        have hbits := hs.le_bits hb.1
        rw [Nat.pow_succ, Nat.mul_comm (64 ^ more), ← Nat.mul_assoc] at hbits
        simp only [State.Beyond, UInt8.reduceToNat, Nat.sub_self, Nat.add_zero]
        exact ⟨Nat.le_refl _, hbits⟩
    · exact opening_beyond b

section Members

variable {a b : UInt8}

theorem toNat_ofNat_ascii (ha : a < 0x80) : (Char.ofNat a.toNat).toNat = a.toNat := by
  have hlt : a.toNat < 0x80 := UInt8.lt_iff_toNat_lt.mp ha
  exact toNat_ofNat_of_isValidChar (.inl (Nat.lt_trans hlt (by decide)))

theorem ofNat_ne_replacement (ha : a < 0x80) : Char.ofNat a.toNat ≠ replacement := by
  intro h
  have hlt : a.toNat < 0x80 := UInt8.lt_iff_toNat_lt.mp ha
  have heq := congrArg Char.toNat h
  rw [toNat_ofNat_ascii ha, show replacement.toNat = 0xFFFD from rfl] at heq
  omega

theorem mem_of_mem_opening (ha : a < 0x80) (h : Char.ofNat a.toNat ∈ (opening b).1) : a = b := by
  unfold opening at h
  split at h
  · next hb =>
    have heq := congrArg Char.toNat (List.mem_singleton.mp h)
    rw [toNat_ofNat_ascii ha, toNat_ofNat_ascii hb] at heq
    exact UInt8.toNat_inj.mp heq
  · split at h
    · cases h
    · exact absurd (List.mem_singleton.mp h) (ofNat_ne_replacement ha)

/-- An ASCII character that a byte yields is the byte. The zero character is left out, because it
also stands for a number that no character has. -/
theorem mem_of_mem_step {s : State} (hs : s.Beyond) (ha : a < 0x80) (hzero : a ≠ 0)
    (h : Char.ofNat a.toNat ∈ (step s b).1) : a = b := by
  cases s with
  | boundary => exact mem_of_mem_opening ha h
  | inside bits low high more =>
    simp only [step] at h
    split at h
    · next hb =>
      cases more with
      | succ more => cases h
      | zero =>
        -- The sequence ends here, as a character beyond ASCII.
        have hbits := hs.le_bits hb.1
        rw [Nat.pow_zero, Nat.mul_one] at hbits
        have hlt : a.toNat < 0x80 := UInt8.lt_iff_toNat_lt.mp ha
        have hpos : a.toNat ≠ 0 := fun h => hzero (UInt8.toNat_inj.mp h)
        have heq := congrArg Char.toNat (List.mem_singleton.mp h)
        rw [toNat_ofNat_ascii ha] at heq
        rcases toNat_ofNat_eq_or (bits * 64 + (b.toNat - 0x80)) with hn | hn
        · rw [hn] at heq
          omega
        · rw [hn] at heq
          exact absurd heq hpos
    · rcases List.mem_cons.mp h with h | h
      · exact absurd h (ofNat_ne_replacement ha)
      · exact mem_of_mem_opening ha h

theorem mem_of_mem_decodeFrom {s : State} (hs : s.Beyond) {bs : Bytes} (ha : a < 0x80)
    (hzero : a ≠ 0) (h : Char.ofNat a.toNat ∈ decodeFrom s bs) : a ∈ bs := by
  induction bs generalizing s with
  | nil =>
    cases s with
    | boundary => cases h
    | inside => exact absurd (List.mem_singleton.mp h) (ofNat_ne_replacement ha)
  | cons b bs ih =>
    rcases List.mem_append.mp h with h | h
    · rw [mem_of_mem_step hs ha hzero h]
      exact .head bs
    · exact .tail b (ih (hs.step b) h)

/-- An ASCII character in a text comes from its byte. -/
theorem mem_of_mem_decode {bs : Bytes} (ha : a < 0x80) (hzero : a ≠ 0)
    (h : Char.ofNat a.toNat ∈ decode bs) : a ∈ bs :=
  mem_of_mem_decodeFrom (s := .boundary) trivial ha hzero h

end Members

end ReferenceGraph.Utf8
