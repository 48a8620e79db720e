import Mathlib.Data.List.TakeWhile
import ReferenceGraph.Graph.Json

/-!
# The tokens of a JSON text

A JSON text is cut into tokens by a machine that takes one character at a time (`step?`), so that it
can be followed across a concatenation. Numbers and the three literals are words: they end where a
character comes that no word has. Strings are read as code points, and the surrogates among these
are put together at the end (`charsFrom?`).

* `tokensFrom?_number`, `tokensFrom?_string`: a written number and a written string are one token
  each.
* `tokensFrom?_mark`: so is each of the six punctuation marks.
-/

namespace ReferenceGraph

namespace Json

/-- A number: its sign, its digits, and the power of ten that they are multiplied by. -/
structure Number where
  negative : Bool
  digits : Nat
  exponent : Int
deriving DecidableEq, Repr

/-- A number without sign and fraction. -/
def Number.ofNat (n : Nat) : Number := ⟨false, n, 0⟩

/-- A part of a text that is read as a whole. -/
inductive Token where
  | openArray
  | closeArray
  | openObject
  | closeObject
  | comma
  | colon
  | null
  | bool (b : Bool)
  | number (x : Number)
  | string (s : String)
deriving DecidableEq, Repr

/-! ## Words -/

/-- The number that a run of decimal digits writes. -/
def ofDigits (cs : List Char) : Nat := Nat.ofDigitChars 10 cs 0

/-- The part of a number behind its digits: `e` or `E`, perhaps a sign, and digits. Without it the
exponent is zero. -/
def exponent? : List Char → Option Int
  | [] => some 0
  | c :: cs =>
    if c = 'e' ∨ c = 'E' then
      let (negative, ds) :=
        match cs with
        | '+' :: ds => (false, ds)
        | '-' :: ds => (true, ds)
        | ds => (false, ds)
      if ds ≠ [] ∧ ds.all Char.isDigit then
        some (if negative then -(ofDigits ds : Int) else ofDigits ds)
      else none
    else none

/-- The number that a word without a sign writes: digits without a leading zero, perhaps a fraction,
perhaps an exponent. -/
def unsigned? (negative : Bool) (cs : List Char) : Option Number :=
  let whole := cs.takeWhile Char.isDigit
  if whole = [] ∨ (whole.head? = some '0' ∧ whole ≠ ['0']) then none
  else
    match cs.dropWhile Char.isDigit with
    | '.' :: rest =>
      let fraction := rest.takeWhile Char.isDigit
      if fraction = [] then none
      else (exponent? (rest.dropWhile Char.isDigit)).map fun e =>
        ⟨negative, ofDigits (whole ++ fraction), e - fraction.length⟩
    | rest => (exponent? rest).map fun e => ⟨negative, ofDigits whole, e⟩

/-- The token that a word stands for. -/
def word? (cs : List Char) : Option Token :=
  if cs = ['n', 'u', 'l', 'l'] then some .null
  else if cs = ['t', 'r', 'u', 'e'] then some (.bool true)
  else if cs = ['f', 'a', 'l', 's', 'e'] then some (.bool false)
  else match cs with
    | '-' :: cs => (unsigned? true cs).map .number
    | cs => (unsigned? false cs).map .number

/-! ## Strings -/

/-- The text of a sequence of code points. Two surrogates, the high one first, stand for a code
point beyond the sixteen-bit range; `high?` is a high one that waits for the low one. A surrogate by
itself has no text. -/
def charsFrom? : (high? : Option Nat) → List Nat → Option (List Char)
  | none, [] => some []
  | some _, [] => none
  | none, n :: ns =>
    if 0xD800 ≤ n ∧ n < 0xDC00 then charsFrom? (some n) ns
    else if 0xDC00 ≤ n ∧ n < 0xE000 then none
    else (charsFrom? none ns).map (Char.ofNat n :: ·)
  | some high, n :: ns =>
    if 0xDC00 ≤ n ∧ n < 0xE000 then
      (charsFrom? none ns).map
        (Char.ofNat (0x10000 + (high - 0xD800) * 0x400 + (n - 0xDC00)) :: ·)
    else none

/-- The character that stands behind a backslash for another one. -/
def escaped? (c : Char) : Option Char :=
  if c = '"' ∨ c = '\\' ∨ c = '/' then some c
  else if c = 'b' then some '\x08'
  else if c = 'f' then some '\x0c'
  else if c = 'n' then some '\n'
  else if c = 'r' then some '\x0d'
  else if c = 't' then some '\t'
  else none

/-- The value of a hexadecimal digit. -/
def hexValue? (c : Char) : Option Nat :=
  if '0' ≤ c ∧ c ≤ '9' then some (c.toNat - 0x30)
  else if 'a' ≤ c ∧ c ≤ 'f' then some (c.toNat - 0x61 + 10)
  else if 'A' ≤ c ∧ c ≤ 'F' then some (c.toNat - 0x41 + 10)
  else none

/-! ## The machine -/

/-- What is under way between two characters. -/
inductive Mode where
  /-- No token is under way. -/
  | between
  /-- A word with these characters so far. -/
  | word (cs : List Char)
  /-- A string with these code points so far. -/
  | text (codes : List Nat)
  /-- Behind a backslash in a string. -/
  | escape (codes : List Nat)
  /-- In a code point that is given by its digits: it has this value so far, and after the next
  digit `more` of them are missing. -/
  | code (codes : List Nat) (more value : Nat)
deriving DecidableEq, Repr

/-- The characters of words. -/
def isWordChar (c : Char) : Bool := c.isAlphanum || c == '+' || c == '-' || c == '.'

/-- The white space that may stand between tokens. -/
def isSpace (c : Char) : Bool := c == ' ' || c == '\t' || c == '\n' || c == '\x0d'

/-- The token that is a single character. -/
def mark? (c : Char) : Option Token :=
  if c = '[' then some .openArray
  else if c = ']' then some .closeArray
  else if c = '\x7b' then some .openObject
  else if c = '\x7d' then some .closeObject
  else if c = ',' then some .comma
  else if c = ':' then some .colon
  else none

/-- The tokens that end with a character between two tokens, and the mode after it. -/
def opening? (c : Char) : Option (List Token × Mode) :=
  if isSpace c then some ([], .between)
  else if isWordChar c then some ([], .word [c])
  else if c = '"' then some ([], .text [])
  else (mark? c).map fun t => ([t], .between)

/-- The tokens that end with a character, and the mode after it. -/
def step? : Mode → Char → Option (List Token × Mode)
  | .between, c => opening? c
  | .word cs, c =>
    if isWordChar c then some ([], .word (cs ++ [c]))
    else (word? cs).bind fun t => (opening? c).map fun x => (t :: x.1, x.2)
  | .text codes, c =>
    if c = '"' then (charsFrom? none codes).map fun cs => ([.string (String.ofList cs)], .between)
    else if c = '\\' then some ([], .escape codes)
    else if c.toNat < 0x20 then none
    else some ([], .text (codes ++ [c.toNat]))
  | .escape codes, c =>
    if c = 'u' then some ([], .code codes 3 0)
    else (escaped? c).map fun d => ([], .text (codes ++ [d.toNat]))
  | .code codes more value, c =>
    (hexValue? c).map fun d =>
      match more with
      | 0 => ([], .text (codes ++ [value * 16 + d]))
      | more + 1 => ([], .code codes more (value * 16 + d))

/-- The tokens that end with the text. -/
def finish? : Mode → Option (List Token)
  | .between => some []
  | .word cs => (word? cs).map fun t => [t]
  | _ => none

/-- The tokens of a text from a mode on. -/
def tokensFrom? : Mode → List Char → Option (List Token)
  | m, [] => finish? m
  | m, c :: cs => (step? m c).bind fun x => (tokensFrom? x.2 cs).map (x.1 ++ ·)

/-- The tokens of a text. -/
def tokens? (text : String) : Option (List Token) := tokensFrom? .between text.toList

/-- A character at which no token ends only changes the mode. -/
theorem tokensFrom?_cons_of_step {m m' : Mode} {c : Char} (h : step? m c = some ([], m'))
    (rest : List Char) : tokensFrom? m (c :: rest) = tokensFrom? m' rest := by
  rw [tokensFrom?, h, Option.bind_some]
  exact Option.map_id'

/-! ## Written numbers -/

/-- The text does not go on with a word. -/
def EndsWord (rest : List Char) : Prop := ∀ c ∈ rest.head?, isWordChar c = false

theorem endsWord_cons {c : Char} {rest : List Char} (h : isWordChar c = false) :
    EndsWord (c :: rest) := by
  intro d hd
  rw [List.head?_cons, Option.mem_some_iff] at hd
  rwa [← hd]

/-- A word is read up to its end. -/
theorem tokensFrom?_word {cs ds rest : List Char} {t : Token}
    (hds : ∀ c ∈ ds, isWordChar c = true) (ht : word? (cs ++ ds) = some t) (hrest : EndsWord rest) :
    tokensFrom? (.word cs) (ds ++ rest) = (tokensFrom? .between rest).map (t :: ·) := by
  induction ds generalizing cs with
  | nil =>
    rw [List.append_nil] at ht
    cases rest with
    | nil => simp [tokensFrom?, finish?, ht]
    | cons c rest =>
      have hc : isWordChar c = false := hrest c rfl
      simp only [List.nil_append, tokensFrom?, step?, hc, ht, Option.bind_some]
      cases opening? c with
      | none => rfl
      | some x => simp [Option.map_map, Function.comp_def]
  | cons d ds ih =>
    have hd : isWordChar d = true := hds d (by simp)
    have hstep : step? (.word cs) d = some ([], .word (cs ++ [d])) := by rw [step?, if_pos hd]
    rw [List.cons_append, tokensFrom?_cons_of_step hstep]
    exact ih (fun c hc => hds c (by simp [hc])) (by simpa using ht)

theorem isWordChar_of_isDigit {c : Char} (h : c.isDigit = true) : isWordChar c = true := by
  simp [isWordChar, Char.isAlphanum, h]

theorem toDigits_isDigit (n : Nat) : ∀ c ∈ Nat.toDigits 10 n, c.isDigit = true :=
  fun _ hc => Nat.isDigit_of_mem_toDigits (by decide) (by decide) hc

/-- Only zero is written with a leading zero. -/
theorem head?_toDigits {n : Nat} (h : (Nat.toDigits 10 n).head? = some '0') : n = 0 := by
  induction n using Nat.strongRecOn with
  | ind n ih =>
    rw [Nat.toDigits_eq_if (by decide)] at h
    split at h
    · next hn =>
      have := Nat.digitChar_eq_zero.mp (Option.some.inj h)
      omega
    · next hn =>
      rw [List.head?_append, Option.or_of_isSome (by simp [Nat.toDigits_ne_nil])] at h
      have := ih (n / 10) (by omega) h
      omega

theorem unsigned?_toDigits (n : Nat) :
    unsigned? false (Nat.toDigits 10 n) = some (.ofNat n) := by
  have htake : (Nat.toDigits 10 n).takeWhile Char.isDigit = Nat.toDigits 10 n :=
    List.takeWhile_eq_self_iff.mpr (toDigits_isDigit n)
  have hdrop : (Nat.toDigits 10 n).dropWhile Char.isDigit = [] :=
    List.dropWhile_eq_nil_iff.mpr (toDigits_isDigit n)
  have hzero : ¬(Nat.toDigits 10 n = [] ∨
      ((Nat.toDigits 10 n).head? = some '0' ∧ Nat.toDigits 10 n ≠ ['0'])) := by
    rintro (h | ⟨h, hne⟩)
    · exact Nat.toDigits_ne_nil h
    · exact hne (by rw [head?_toDigits h]; rfl)
  simp only [unsigned?, htake, hdrop, if_neg hzero]
  simp [exponent?, ofDigits, Number.ofNat, Nat.ofDigitChars_toDigits]

theorem ne_of_isDigit {c d : Char} (hc : c.isDigit = true) (hd : d.isDigit = false) : c ≠ d := by
  rintro rfl
  rw [hc] at hd
  cases hd

theorem word?_of_isDigit {cs : List Char} (h : ∀ c ∈ cs, c.isDigit = true) :
    word? cs = (unsigned? false cs).map .number := by
  cases cs with
  | nil => rfl
  | cons c cs =>
    have hc : c.isDigit = true := h c (by simp)
    have hliteral : ∀ d ds, d.isDigit = false → c :: cs ≠ d :: ds :=
      fun d ds hd e => ne_of_isDigit hc hd (List.cons.inj e).1
    unfold word?
    rw [if_neg (hliteral 'n' _ rfl), if_neg (hliteral 't' _ rfl), if_neg (hliteral 'f' _ rfl)]
    split
    · next e => exact absurd e (hliteral '-' _ rfl)
    · rfl

theorem opening?_of_isDigit {c : Char} (h : c.isDigit = true) :
    opening? c = some ([], .word [c]) := by
  have hspace : isSpace c = false := by
    simp [isSpace, ne_of_isDigit h]
  simp [opening?, hspace, isWordChar_of_isDigit h]

/-- A written number is one token. -/
theorem tokensFrom?_number (n : Nat) {rest : List Char} (hrest : EndsWord rest) :
    tokensFrom? .between ((number n).toList ++ rest) =
      (tokensFrom? .between rest).map (.number (.ofNat n) :: ·) := by
  have hdigits := toDigits_isDigit n
  have hword : word? (Nat.toDigits 10 n) = some (.number (.ofNat n)) := by
    rw [word?_of_isDigit hdigits, unsigned?_toDigits, Option.map_some]
  rw [number, Nat.toString_eq_ofList_toDigits, String.toList_ofList]
  cases hds : Nat.toDigits 10 n with
  | nil => exact absurd hds Nat.toDigits_ne_nil
  | cons d ds =>
    rw [hds] at hdigits hword
    have hd : d.isDigit = true := hdigits d (by simp)
    have hstep : step? .between d = some ([], .word [d]) := opening?_of_isDigit hd
    rw [List.cons_append, tokensFrom?_cons_of_step hstep]
    have hwords : ∀ c ∈ ds, isWordChar c = true := fun c hc =>
      isWordChar_of_isDigit (hdigits c (by simp [hc]))
    exact tokensFrom?_word hwords hword hrest

/-! ## Written strings -/

theorem charsFrom?_map_toNat (cs : List Char) : charsFrom? none (cs.map Char.toNat) = some cs := by
  induction cs with
  | nil => rfl
  | cons c cs ih =>
    have hvalid : c.toNat < 0xD800 ∨ 0xDFFF < c.toNat ∧ c.toNat < 0x110000 := c.valid
    rw [List.map_cons, charsFrom?, if_neg (by omega), if_neg (by omega), ih, Option.map_some,
      Char.ofNat_toNat]

theorem hexValue?_hexDigit : ∀ d < 16, hexValue? (hexDigit d) = some d := by
  decide

/-- A character is written as a backslash and another character that stands for it, as its code
point in hexadecimal digits, or as itself. -/
theorem escape_cases (c : Char) :
    (∃ d, escape c = ['\\', d] ∧ d ≠ 'u' ∧ escaped? d = some c) ∨
      (c.toNat < 0x20 ∧
        escape c = ['\\', 'u', '0', '0', hexDigit (c.toNat / 16), hexDigit (c.toNat % 16)]) ∨
      (escape c = [c] ∧ c ≠ '"' ∧ c ≠ '\\' ∧ ¬c.toNat < 0x20) := by
  unfold escape
  by_cases hq : c = '"'
  · subst hq
    exact .inl ⟨_, rfl, by decide, rfl⟩
  by_cases hb : c = '\\'
  · subst hb
    exact .inl ⟨_, rfl, by decide, rfl⟩
  rw [if_neg hq, if_neg hb]
  iterate 5
    split
    · next h => exact .inl ⟨_, rfl, by decide, by rw [h]; rfl⟩
  split
  · next h => exact .inr (.inl ⟨h, rfl⟩)
  · next h => exact .inr (.inr ⟨rfl, hq, hb, h⟩)

/-- A written character is read as its code point. -/
theorem tokensFrom?_escape (codes : List Nat) (c : Char) (rest : List Char) :
    tokensFrom? (.text codes) (escape c ++ rest) =
      tokensFrom? (.text (codes ++ [c.toNat])) rest := by
  have hescape : step? (.text codes) '\\' = some ([], .escape codes) := rfl
  rcases escape_cases c with ⟨d, he, hu, hd⟩ | ⟨hc, he⟩ | ⟨he, hq, hb, hc⟩
  · have hchar : step? (.escape codes) d = some ([], .text (codes ++ [c.toNat])) := by
      rw [step?, if_neg hu, hd, Option.map_some]
    rw [he, List.cons_append, tokensFrom?_cons_of_step hescape, List.cons_append,
      tokensFrom?_cons_of_step hchar, List.nil_append]
  · -- Behind the backslash there are a `u` and four digits, the first two of them zero.
    have hcode : (0 * 16 + c.toNat / 16) * 16 + c.toNat % 16 = c.toNat := by omega
    have hzero (more : Nat) :
        step? (.code codes (more + 1) 0) '0' = some ([], .code codes more 0) := rfl
    have hhigh : step? (.code codes 1 0) (hexDigit (c.toNat / 16)) =
        some ([], .code codes 0 (0 * 16 + c.toNat / 16)) := by
      rw [step?, hexValue?_hexDigit _ (by omega), Option.map_some]
    have hlow : step? (.code codes 0 (0 * 16 + c.toNat / 16)) (hexDigit (c.toNat % 16)) =
        some ([], .text (codes ++ [c.toNat])) := by
      simp only [step?, hexValue?_hexDigit _ (Nat.mod_lt _ (by decide : 0 < 16)), Option.map_some,
        hcode]
    rw [he]
    calc tokensFrom? (.text codes) ('\\' :: 'u' :: '0' :: '0' :: hexDigit (c.toNat / 16) ::
          hexDigit (c.toNat % 16) :: rest)
      _ = tokensFrom? (.code codes 3 0) ('0' :: '0' :: hexDigit (c.toNat / 16) ::
          hexDigit (c.toNat % 16) :: rest) := by
        rw [tokensFrom?_cons_of_step hescape]
        exact tokensFrom?_cons_of_step rfl _
      _ = tokensFrom? (.code codes 1 0) (hexDigit (c.toNat / 16) :: hexDigit (c.toNat % 16) ::
          rest) := by
        rw [tokensFrom?_cons_of_step (hzero 2), tokensFrom?_cons_of_step (hzero 1)]
      _ = tokensFrom? (.text (codes ++ [c.toNat])) rest := by
        rw [tokensFrom?_cons_of_step hhigh, tokensFrom?_cons_of_step hlow]
  · have hself : step? (.text codes) c = some ([], .text (codes ++ [c.toNat])) := by
      rw [step?, if_neg hq, if_neg hb, if_neg hc]
    rw [he, List.cons_append, tokensFrom?_cons_of_step hself, List.nil_append]

/-- A written string is one token. -/
theorem tokensFrom?_string (s : String) (rest : List Char) :
    tokensFrom? .between ((string s).toList ++ rest) =
      (tokensFrom? .between rest).map (.string s :: ·) := by
  have hbody : ∀ (codes : List Nat) (cs : List Char),
      tokensFrom? (.text codes) (cs.flatMap escape ++ '"' :: rest) =
        tokensFrom? (.text (codes ++ cs.map Char.toNat)) ('"' :: rest) := by
    intro codes cs
    induction cs generalizing codes with
    | nil => simp
    | cons c cs ih =>
      rw [List.flatMap_cons, List.append_assoc, tokensFrom?_escape, ih]
      simp
  have hopen : tokensFrom? .between ('"' :: (s.toList.flatMap escape ++ '"' :: rest)) =
      tokensFrom? (.text []) (s.toList.flatMap escape ++ '"' :: rest) :=
    tokensFrom?_cons_of_step rfl _
  have htext : (string s).toList ++ rest = '"' :: (s.toList.flatMap escape ++ '"' :: rest) := by
    simp [string]
  rw [htext, hopen, hbody, List.nil_append, tokensFrom?, step?, if_pos rfl, charsFrom?_map_toNat,
    Option.map_some, String.ofList_toList]
  rfl

/-! ## Punctuation marks -/

theorem tokensFrom?_mark {c : Char} {t : Token} (h : opening? c = some ([t], .between))
    (rest : List Char) :
    tokensFrom? .between (c :: rest) = (tokensFrom? .between rest).map (t :: ·) := by
  rw [tokensFrom?, step?, h, Option.bind_some]
  rfl

end Json

end ReferenceGraph
