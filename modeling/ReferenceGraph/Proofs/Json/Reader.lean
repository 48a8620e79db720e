import Mathlib.Data.List.Forall2
import ReferenceGraph.Proofs.Json.Token
import ReferenceGraph.Proofs.Lists.Joined

/-!
# Reading JSON

The tokens of a JSON text are read by a machine with a stack of the arrays and objects that have
been opened (`State.next?`). A text that is a value (`Writes`) is read as this value wherever a
value may come: the machine goes on behind it with the same stack. This holds of everything that is
written as a number, a string, an array or an object.

* `read?`: the value of a whole text.
* `writes_number`, `writes_string`, `writes_array`, `writes_object`: what is written is a value.
* `read?_of_writes`: a value with a line feed behind it is read.
-/

namespace ReferenceGraph

namespace Json

/-- A JSON value. The members of an object are kept in the order of the text. -/
inductive Value where
  | null
  | bool (b : Bool)
  | number (x : Number)
  | string (s : String)
  | array (values : List Value)
  | object (members : List (String × Value))

/-- A natural number as a value. -/
def Value.ofNat (n : Nat) : Value := .number (.ofNat n)

/-- The value of the first member with the key. -/
def Value.member? (key : String) : Value → Option Value
  | .object members => members.lookup key
  | _ => none

/-- An array or an object that has been opened, with what it holds so far. -/
inductive Frame where
  | array (values : List Value)
  /-- The value of the key comes next. -/
  | object (members : List (String × Value)) (key : String)

/-- What comes next, and what has been opened, the innermost first. -/
inductive State where
  /-- A value. -/
  | value (frames : List Frame)
  /-- The first value of an array, or its end. -/
  | element (frames : List Frame)
  /-- The first key of an object, or its end. -/
  | member (frames : List Frame)
  /-- A further key of an object. -/
  | key (members : List (String × Value)) (frames : List Frame)
  /-- The colon behind a key. -/
  | colon (members : List (String × Value)) (key : String) (frames : List Frame)
  /-- Nothing, or a comma or the end of what has been opened: a value is complete. -/
  | done (v : Value) (frames : List Frame)

/-- The state after a token where a value may come. -/
def stepValue? (frames : List Frame) : Token → Option State
  | .null => some (.done .null frames)
  | .bool b => some (.done (.bool b) frames)
  | .number x => some (.done (.number x) frames)
  | .string s => some (.done (.string s) frames)
  | .openArray => some (.element frames)
  | .openObject => some (.member frames)
  | _ => none

/-- The state after a token where a key may come. -/
def stepKey? (members : List (String × Value)) (frames : List Frame) : Token → Option State
  | .string key => some (.colon members key frames)
  | _ => none

/-- The state after a token behind a value. -/
def stepDone? (v : Value) : List Frame → Token → Option State
  | .array values :: frames, .comma => some (.value (.array (values ++ [v]) :: frames))
  | .array values :: frames, .closeArray => some (.done (.array (values ++ [v])) frames)
  | .object members key :: frames, .comma => some (.key (members ++ [(key, v)]) frames)
  | .object members key :: frames, .closeObject =>
    some (.done (.object (members ++ [(key, v)])) frames)
  | _, _ => none

/-- The state after a token. -/
def State.next? : State → Token → Option State
  | .value frames, t => stepValue? frames t
  | .element frames, .closeArray => some (.done (.array []) frames)
  | .element frames, t => stepValue? (.array [] :: frames) t
  | .member frames, .closeObject => some (.done (.object []) frames)
  | .member frames, t => stepKey? [] frames t
  | .key members frames, t => stepKey? members frames t
  | .colon members name frames, .colon => some (.value (.object members name :: frames))
  | .colon .., _ => none
  | .done v frames, t => stepDone? v frames t

/-- The value that the tokens make from a state on. -/
def readFrom? : State → List Token → Option Value
  | .done v [], [] => some v
  | _, [] => none
  | s, t :: ts => (s.next? t).bind (readFrom? · ts)

/-- The value of a JSON text. -/
def read? (text : String) : Option Value := (tokens? text).bind (readFrom? (.value []))

/-! ## Tokens of values -/

/-- The tokens are those of the value: where a value may come, they are read as this one. -/
def Denotes (ts : List Token) (v : Value) : Prop :=
  ∀ frames us, readFrom? (.value frames) (ts ++ us) = readFrom? (.done v frames) us

theorem readFrom?_cons {s s' : State} {t : Token} (h : s.next? t = some s') (ts : List Token) :
    readFrom? s (t :: ts) = readFrom? s' ts := by
  rw [readFrom?, h, Option.bind_some]

theorem denotes_number (x : Number) : Denotes [.number x] (.number x) :=
  fun _ us => readFrom?_cons rfl us

theorem denotes_string (s : String) : Denotes [.string s] (.string s) :=
  fun _ us => readFrom?_cons rfl us

/-- The first token of a value does not end an array. -/
theorem Denotes.element {ts : List Token} {v : Value} (h : Denotes ts v) (frames : List Frame)
    (us : List Token) :
    readFrom? (.element frames) (ts ++ us) =
      readFrom? (.value (.array [] :: frames)) (ts ++ us) := by
  have hread := h [] []
  cases ts with
  | nil => cases hread
  | cons t ts =>
    cases t with
    | closeArray => cases hread
    | _ => rfl

/-- The values of an array, from a further one on. -/
theorem readFrom?_values {tss : List (List Token)} {values : List Value}
    (h : List.Forall₂ Denotes tss values) (hne : tss ≠ []) (before : List Value)
    (frames : List Frame) (us : List Token) :
    readFrom? (.value (.array before :: frames)) ([.comma].intercalate tss ++ .closeArray :: us) =
      readFrom? (.done (.array (before ++ values)) frames) us := by
  induction h generalizing before with
  | nil => exact absurd rfl hne
  | @cons ts v tss values hv hrest ih =>
    by_cases htss : tss = []
    · subst htss
      cases hrest
      rw [List.intercalate_singleton, hv]
      exact readFrom?_cons rfl us
    · rw [List.intercalate_cons_of_ne_nil htss, List.append_assoc, List.append_assoc, hv,
        List.singleton_append, readFrom?_cons rfl, ih htss]
      simp

theorem denotes_array {tss : List (List Token)} {values : List Value}
    (h : List.Forall₂ Denotes tss values) :
    Denotes (.openArray :: [.comma].intercalate tss ++ [.closeArray]) (.array values) := by
  intro frames us
  rw [List.cons_append, List.cons_append, readFrom?_cons rfl, List.append_assoc,
    List.singleton_append]
  cases h with
  | nil => exact readFrom?_cons rfl us
  | @cons ts v tss values hv hrest =>
    obtain ⟨more, hmore⟩ := prefix_intercalate_cons [Token.comma] ts tss
    have hvalues := readFrom?_values (.cons hv hrest) (by simp) [] frames us
    rw [← hmore, List.append_assoc] at hvalues ⊢
    rw [hv.element, hvalues, List.nil_append]

/-- The tokens of a member of an object. -/
def memberTokens (m : String × List Token) : List Token := .string m.1 :: .colon :: m.2

/-- The key is the same, and the tokens are those of the value. -/
def DenotesMember (m : String × List Token) (v : String × Value) : Prop :=
  m.1 = v.1 ∧ Denotes m.2 v.2

/-- The members of an object, from a further key on. -/
theorem readFrom?_members {ms : List (String × List Token)} {members : List (String × Value)}
    (h : List.Forall₂ DenotesMember ms members) (hne : ms ≠ []) (before : List (String × Value))
    (frames : List Frame) (us : List Token) :
    readFrom? (.key before frames)
        ([.comma].intercalate (ms.map memberTokens) ++ .closeObject :: us) =
      readFrom? (.done (.object (before ++ members)) frames) us := by
  induction h generalizing before with
  | nil => exact absurd rfl hne
  | @cons m v ms members hv hrest ih =>
    obtain ⟨key, ts⟩ := m
    obtain ⟨rfl, hv⟩ := hv
    by_cases hms : ms = []
    · subst hms
      cases hrest
      rw [List.map_singleton, List.intercalate_singleton, memberTokens, List.cons_append,
        List.cons_append, readFrom?_cons rfl, readFrom?_cons rfl, hv]
      exact readFrom?_cons rfl us
    · rw [List.map_cons, List.intercalate_cons_of_ne_nil (by simpa using hms), memberTokens,
        List.append_assoc, List.append_assoc, List.cons_append, List.cons_append,
        readFrom?_cons rfl, readFrom?_cons rfl, hv, List.singleton_append, readFrom?_cons rfl,
        ih hms]
      simp

theorem denotes_object {ms : List (String × List Token)} {members : List (String × Value)}
    (h : List.Forall₂ DenotesMember ms members) :
    Denotes (.openObject :: [.comma].intercalate (ms.map memberTokens) ++ [.closeObject])
      (.object members) := by
  intro frames us
  rw [List.cons_append, List.cons_append, readFrom?_cons rfl, List.append_assoc,
    List.singleton_append]
  cases h with
  | nil => exact readFrom?_cons rfl us
  | @cons m v ms members hv hrest =>
    obtain ⟨more, hmore⟩ := prefix_intercalate_cons [Token.comma] (memberTokens m)
      (ms.map memberTokens)
    have hmembers := readFrom?_members (.cons hv hrest) (by simp) [] frames us
    rw [List.map_cons] at hmembers ⊢
    rw [← hmore] at hmembers ⊢
    -- A key may come first, and a string is read the same way then.
    exact hmembers

/-! ## Texts of values -/

/-- The text is cut into the tokens, if no word goes on behind it. -/
def Yields (cs : List Char) (ts : List Token) : Prop :=
  ∀ rest, EndsWord rest →
    tokensFrom? .between (cs ++ rest) = (tokensFrom? .between rest).map (ts ++ ·)

/-- The text is one of the value. -/
def Writes (s : String) (v : Value) : Prop := ∃ ts, Yields s.toList ts ∧ Denotes ts v

theorem yields_nil : Yields [] [] := fun _ _ => Option.map_id'.symm

/-- A text between two marks. -/
theorem Yields.enclosed {c d : Char} {t u : Token} (hc : opening? c = some ([t], .between))
    (hd : opening? d = some ([u], .between)) (hword : isWordChar d = false) {cs : List Char}
    {ts : List Token} (h : Yields cs ts) : Yields (c :: cs ++ [d]) (t :: ts ++ [u]) := by
  intro rest _
  have hclose := h (d :: rest) (endsWord_cons hword)
  rw [List.append_assoc, List.singleton_append, List.cons_append, tokensFrom?_mark hc, hclose,
    tokensFrom?_mark hd]
  simp [Function.comp_def]

/-- Texts with commas between them. -/
theorem Yields.intercalate {css : List (List Char)} {tss : List (List Token)}
    (h : List.Forall₂ Yields css tss) :
    Yields ([','].intercalate css) ([.comma].intercalate tss) := by
  induction h with
  | nil => exact yields_nil
  | @cons cs ts css tss hcs hrest ih =>
    by_cases hcss : css = []
    · subst hcss
      cases hrest
      simpa using hcs
    · have htss : tss ≠ [] := by
        rintro rfl
        cases hrest
        exact hcss rfl
      intro rest hword
      have hcomma : opening? ',' = some ([.comma], .between) := rfl
      rw [List.intercalate_cons_of_ne_nil hcss, List.intercalate_cons_of_ne_nil htss,
        List.append_assoc, List.append_assoc, List.singleton_append,
        hcs _ (endsWord_cons (by decide)), tokensFrom?_mark hcomma, ih rest hword]
      simp [Function.comp_def]

theorem writes_number (n : Nat) : Writes (number n) (.ofNat n) :=
  ⟨[.number (.ofNat n)], fun _ hrest => tokensFrom?_number n hrest, denotes_number _⟩

theorem writes_string (s : String) : Writes (string s) (.string s) :=
  ⟨[.string s], fun rest _ => tokensFrom?_string s rest, denotes_string s⟩

/-- If related elements of two lists have something between them, there is a list of it. -/
theorem exists_forall₂_between {α β γ : Type} {R : α → γ → Prop} {P : α → β → Prop}
    {Q : β → γ → Prop} (hR : ∀ a c, R a c → ∃ b, P a b ∧ Q b c) {as : List α} {cs : List γ}
    (h : List.Forall₂ R as cs) : ∃ bs, List.Forall₂ P as bs ∧ List.Forall₂ Q bs cs := by
  induction h with
  | nil => exact ⟨[], .nil, .nil⟩
  | cons hr _ ih =>
    obtain ⟨b, hp, hq⟩ := hR _ _ hr
    obtain ⟨bs, hps, hqs⟩ := ih
    exact ⟨b :: bs, .cons hp hps, .cons hq hqs⟩

theorem writes_array {texts : List String} {values : List Value}
    (h : List.Forall₂ Writes texts values) : Writes (array texts) (.array values) := by
  have hvalue : ∀ s v, Writes s v → ∃ ts, Yields s.toList ts ∧ Denotes ts v := fun _ _ hw => hw
  obtain ⟨tss, htss, hvs⟩ := exists_forall₂_between hvalue h
  refine ⟨_, ?_, denotes_array hvs⟩
  have htext : (array texts).toList =
      '[' :: [','].intercalate (texts.map String.toList) ++ [']'] := by
    simp [array, String.toList_intercalate]
  rw [htext]
  exact (Yields.intercalate (List.forall₂_map_left_iff.mpr htss)).enclosed rfl rfl (by decide)

/-- The key is the same, and the text is one of the value. -/
def WritesMember (m : String × String) (v : String × Value) : Prop :=
  m.1 = v.1 ∧ Writes m.2 v.2

/-- The text of a member of an object. -/
def memberText (m : String × String) : String := string m.1 ++ ":" ++ m.2

theorem yields_memberText {key text : String} {ts : List Token} (h : Yields text.toList ts) :
    Yields (memberText (key, text)).toList (memberTokens (key, ts)) := by
  intro rest hword
  have hcolon : opening? ':' = some ([.colon], .between) := rfl
  have htext : (memberText (key, text)).toList ++ rest =
      (string key).toList ++ ':' :: (text.toList ++ rest) := by
    simp [memberText]
  rw [htext, tokensFrom?_string, tokensFrom?_mark hcolon, h rest hword]
  simp [memberTokens, Function.comp_def]

theorem writes_object {members : List (String × String)} {values : List (String × Value)}
    (h : List.Forall₂ WritesMember members values) :
    Writes (object members) (.object values) := by
  have hmember : ∀ m v, WritesMember m v → ∃ x : String × List Token,
      Yields (memberText m).toList (memberTokens x) ∧ DenotesMember x v := by
    rintro ⟨key, text⟩ v ⟨hkey, ts, hts, hv⟩
    exact ⟨(key, ts), yields_memberText hts, hkey, hv⟩
  obtain ⟨ms, hms, hvs⟩ := exists_forall₂_between hmember h
  refine ⟨_, ?_, denotes_object hvs⟩
  have htext : (object members).toList =
      '\x7b' :: [','].intercalate (members.map fun m => (memberText m).toList) ++ ['\x7d'] := by
    simp [object, memberText, String.toList_intercalate, Function.comp_def]
  rw [htext]
  refine (Yields.intercalate ?_).enclosed rfl rfl (by decide)
  exact List.forall₂_map_left_iff.mpr (List.forall₂_map_right_iff.mpr hms)

/-- A text of a value with a line feed behind it is read as the value. -/
theorem read?_of_writes {s : String} {v : Value} (h : Writes s v) : read? (s ++ "\n") = some v := by
  obtain ⟨ts, hts, hv⟩ := h
  have htokens : tokens? (s ++ "\n") = some ts := by
    have hend : EndsWord "\n".toList := endsWord_cons (by decide)
    rw [tokens?, String.toList_append, hts _ hend]
    simp [tokensFrom?, step?, opening?, isSpace, finish?]
  have hread := hv [] []
  rw [List.append_nil] at hread
  rw [read?, htokens, Option.bind_some, hread]
  rfl

end Json

end ReferenceGraph
