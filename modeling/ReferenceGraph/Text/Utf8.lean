/-!
# Bytes and characters

Files and paths are bytes; what is read from them is text. Decoding never fails: every maximal
ill-formed part of a UTF-8 sequence is read as one replacement character. The decoder is a machine
that takes one byte at a time (`step`), so that it can be followed across a concatenation.

* `decodeFrom_append_ascii`, `decode_append_ascii`: an ASCII byte ends whatever sequence was under
  way, so the text before it and the text after it are decoded apart from each other.
* `decodeString_ne_empty`: some bytes always make some text.
-/

namespace ReferenceGraph

/-- A sequence of bytes: the content of a file, or the name of one. -/
abbrev Bytes := List UInt8

namespace Utf8

/-- The character read for an ill-formed part of a sequence. -/
def replacement : Char := '\uFFFD'

/-- Between two bytes a decoder is at a boundary or inside a sequence: then `bits` holds the bits
read so far, the next byte has to lie between `low` and `high`, and `more` bytes come after it. -/
inductive State where
  | boundary
  | inside (bits : Nat) (low high : UInt8) (more : Nat)
deriving DecidableEq, Repr

/-- The state after a byte that opens a sequence of two to four bytes. The bounds on the byte after
it rule out overlong forms, surrogates and code points beyond the last one. -/
def lead? (b : UInt8) : Option State :=
  if b < 0xC2 then none
  else if b < 0xE0 then some (.inside (b.toNat - 0xC0) 0x80 0xBF 0)
  else if b = 0xE0 then some (.inside 0x0 0xA0 0xBF 1)
  else if b = 0xED then some (.inside 0xD 0x80 0x9F 1)
  else if b < 0xF0 then some (.inside (b.toNat - 0xE0) 0x80 0xBF 1)
  else if b = 0xF0 then some (.inside 0x0 0x90 0xBF 2)
  else if b < 0xF4 then some (.inside (b.toNat - 0xF0) 0x80 0xBF 2)
  else if b = 0xF4 then some (.inside 0x4 0x80 0x8F 2)
  else none

/-- What a byte at a boundary yields, and the state after it. -/
def opening (b : UInt8) : List Char × State :=
  if b < 0x80 then ([Char.ofNat b.toNat], .boundary)
  else match lead? b with
    | some s => ([], s)
    | none => ([replacement], .boundary)

/-- What a byte yields in a state, and the state after it. A byte that cannot continue the sequence
under way closes it as ill-formed and counts as the first byte of what follows. -/
def step : State → UInt8 → List Char × State
  | .boundary, b => opening b
  | .inside bits low high more, b =>
    if low ≤ b ∧ b ≤ high then
      match more with
      | 0 => ([Char.ofNat (bits * 64 + (b.toNat - 0x80))], .boundary)
      | more + 1 => ([], .inside (bits * 64 + (b.toNat - 0x80)) 0x80 0xBF more)
    else (replacement :: (opening b).1, (opening b).2)

/-- What the end of the bytes yields: a sequence cut short is ill-formed. -/
def finish : State → List Char
  | .boundary => []
  | .inside .. => [replacement]

/-- The text that the bytes make from a state on. -/
def decodeFrom : State → Bytes → List Char
  | s, [] => finish s
  | s, b :: bs => (step s b).1 ++ decodeFrom (step s b).2 bs

/-- The text of the bytes. -/
def decode (bs : Bytes) : List Char := decodeFrom .boundary bs

/-- The bytes of a text. -/
def encode (cs : List Char) : Bytes := cs.flatMap String.utf8EncodeChar

/-- The text of the bytes, as a string. -/
def decodeString (bs : Bytes) : String := String.ofList (decode bs)

/-- The bytes of a string. -/
def encodeString (s : String) : Bytes := encode s.toList

@[simp] theorem decode_nil : decode [] = [] := rfl

/-- The bounds that a state sets for the next byte lie beyond ASCII. -/
def State.Wide : State → Prop
  | .boundary => True
  | .inside _ low _ _ => 0x80 ≤ low

/-- A byte that opens a sequence leaves it under way, and the byte after it lies beyond ASCII. -/
theorem lead?_eq_some {b : UInt8} {s : State} (h : lead? b = some s) :
    ∃ bits low high more, s = .inside bits low high more ∧ 0x80 ≤ low := by
  simp only [lead?] at h
  repeat' split at h
  all_goals cases h
  all_goals exact ⟨_, _, _, _, rfl, by decide⟩

theorem State.Wide.of_lead? {b : UInt8} {s : State} (h : lead? b = some s) : s.Wide := by
  obtain ⟨bits, low, high, more, rfl, hlow⟩ := lead?_eq_some h
  exact hlow

theorem opening_wide (b : UInt8) : (opening b).2.Wide := by
  simp only [opening]
  split
  · trivial
  · split
    · next s hs => exact .of_lead? hs
    · trivial

theorem State.Wide.step {s : State} (hs : s.Wide) (b : UInt8) : (step s b).2.Wide := by
  cases s with
  | boundary => exact opening_wide b
  | inside bits low high more =>
    simp only [Utf8.step]
    split
    · cases more with
      | zero => trivial
      | succ more => exact UInt8.le_refl 0x80
    · exact opening_wide b

theorem step_ascii {s : State} (hs : s.Wide) {b : UInt8} (hb : b < 0x80) :
    step s b = (finish s ++ [Char.ofNat b.toNat], .boundary) := by
  cases s with
  | boundary => simp [step, opening, hb, finish]
  | inside bits low high more =>
    have hlow : ¬low ≤ b := fun h => absurd (UInt8.le_trans hs h) (UInt8.not_le.mpr hb)
    simp [step, opening, hb, hlow, finish]

/-- An ASCII byte separates what comes before it from what comes after it. -/
theorem decodeFrom_append_ascii {s : State} (hs : s.Wide) {b : UInt8} (hb : b < 0x80)
    (xs ys : Bytes) :
    decodeFrom s (xs ++ b :: ys) = decodeFrom s xs ++ Char.ofNat b.toNat :: decode ys := by
  induction xs generalizing s with
  | nil => simp [decodeFrom, step_ascii hs hb, decode]
  | cons x xs ih => simp [decodeFrom, ih (hs.step x)]

theorem decode_append_ascii {b : UInt8} (hb : b < 0x80) (xs ys : Bytes) :
    decode (xs ++ b :: ys) = decode xs ++ Char.ofNat b.toNat :: decode ys :=
  decodeFrom_append_ascii (s := .boundary) trivial hb xs ys

theorem opening_ne (b : UInt8) : (opening b).1 ≠ [] ∨ (opening b).2 ≠ .boundary := by
  unfold opening
  split
  · exact .inl (List.cons_ne_nil _ _)
  · split
    · next s hs =>
      obtain ⟨bits, low, high, more, rfl, -⟩ := lead?_eq_some hs
      exact .inr State.noConfusion
    · exact .inl (List.cons_ne_nil _ _)

/-- Every byte either yields something or leaves a sequence under way. -/
theorem step_ne (s : State) (b : UInt8) : (step s b).1 ≠ [] ∨ (step s b).2 ≠ .boundary := by
  cases s with
  | boundary => exact opening_ne b
  | inside bits low high more =>
    simp only [step]
    split
    · cases more with
      | zero => exact .inl (List.cons_ne_nil _ _)
      | succ more => exact .inr State.noConfusion
    · exact .inl (List.cons_ne_nil _ _)

theorem decodeFrom_ne_nil {s : State} {bs : Bytes} (h : s ≠ .boundary ∨ bs ≠ []) :
    decodeFrom s bs ≠ [] := by
  induction bs generalizing s with
  | nil =>
    cases s with
    | boundary => simp at h
    | inside => exact List.cons_ne_nil _ _
  | cons b bs ih =>
    rcases step_ne s b with hstep | hstep
    · exact List.append_ne_nil_of_left_ne_nil hstep _
    · exact List.append_ne_nil_of_right_ne_nil _ (ih (.inl hstep))

/-- Bytes are decoded to no text only if there are none. -/
theorem decodeString_ne_empty {bs : Bytes} (h : bs ≠ []) : decodeString bs ≠ "" := by
  rw [decodeString, Ne, ← String.toList_inj, String.toList_ofList]
  exact decodeFrom_ne_nil (.inr h)

end Utf8

end ReferenceGraph
