import Mathlib.Data.List.Basic
import Mathlib.Tactic.Common

/-! # Texts, their characters and their digits

A text is a list of Unicode scalars.  Three ways of measuring it are in use: in scalars, in UTF-16
code units (the offsets of an `NSRange`), and in characters, which are extended grapheme clusters.
What the clusters and the decimal digits are is a matter of the Unicode tables; `Unicode` stands for
them, with the laws that are needed:

* the characters of a text make up the text, and a longer text does not have fewer of them;
* in texts of decimal digits and printable ASCII every scalar is a character of its own;
* the printable ASCII digits are `0` to `9`.

`digits` is what is left of a text when everything but its decimal digits is dropped;
`digits_components` says that splitting at the other scalars and joining the pieces gives the same.
`replacingCharacters` replaces a range of a text, `substring` cuts one out. -/

/-- A text, as a list of Unicode scalars. -/
abbrev Text := List Char

namespace Text

/-- A range of a text in UTF-16 code units. -/
structure NSRange where
  location : ℕ
  length : ℕ
deriving DecidableEq, Repr

/-- The UTF-16 code units of a scalar. -/
def utf16Width (c : Char) : ℕ := if c.toNat < 0x10000 then 1 else 2

/-- The length of a text in UTF-16 code units. -/
def utf16Count : Text → ℕ
  | [] => 0
  | c :: t => utf16Width c + utf16Count t

/-- The printable ASCII characters, the space included. -/
def printable (c : Char) : Bool := ' ' ≤ c && c ≤ '~'

/-- Cuts a list of texts where `n` UTF-16 code units are on the left, if that is between two of
them. -/
def splitUtf16 : ℕ → List Text → Option (List Text × List Text)
  | 0, cs => some ([], cs)
  | _ + 1, [] => none
  | n + 1, c :: cs =>
      if utf16Count c ≤ n + 1 then
        (splitUtf16 (n + 1 - utf16Count c) cs).map fun p => (c :: p.1, p.2)
      else none

@[simp] theorem utf16Count_nil : utf16Count [] = 0 := rfl

@[simp] theorem utf16Count_append (s t : Text) :
    utf16Count (s ++ t) = utf16Count s + utf16Count t := by
  induction s with
  | nil =>
      show utf16Count t = 0 + utf16Count t
      omega
  | cons c s ih =>
      show utf16Width c + utf16Count (s ++ t) = utf16Width c + utf16Count s + utf16Count t
      omega

theorem eq_nil_of_utf16Count {t : Text} (h : utf16Count t = 0) : t = [] := by
  cases t with
  | nil => rfl
  | cons c t =>
      have hc : 0 < utf16Width c := by
        unfold utf16Width
        split <;> omega
      have hsum : utf16Count (c :: t) = utf16Width c + utf16Count t := rfl
      omega

theorem splitUtf16_append {n : ℕ} {cs l r : List Text} (h : splitUtf16 n cs = some (l, r)) :
    l ++ r = cs := by
  induction cs generalizing n l with
  | nil =>
      cases n with
      | zero =>
          obtain ⟨rfl, rfl⟩ := Prod.mk.inj (Option.some.inj h)
          rfl
      | succ n => cases h
  | cons c cs ih =>
      cases n with
      | zero =>
          obtain ⟨rfl, rfl⟩ := Prod.mk.inj (Option.some.inj h)
          rfl
      | succ n =>
          unfold splitUtf16 at h
          split_ifs at h
          obtain ⟨p, hp, heq⟩ := Option.map_eq_some_iff.mp h
          obtain ⟨rfl, rfl⟩ := Prod.mk.inj heq
          rw [List.cons_append, ih hp]

theorem splitUtf16_end (cs : List Text) :
    ∃ l r, splitUtf16 (utf16Count cs.flatten) cs = some (l, r) ∧ r.flatten = [] := by
  induction cs with
  | nil => exact ⟨[], [], rfl, rfl⟩
  | cons c cs ih =>
      obtain ⟨l, r, hsplit, hr⟩ := ih
      rw [List.flatten_cons, utf16Count_append]
      cases hn : utf16Count c + utf16Count cs.flatten with
      | zero =>
          have hempty : c ++ cs.flatten = [] := by
            apply eq_nil_of_utf16Count
            rw [utf16Count_append, hn]
          exact ⟨[], c :: cs, rfl, hempty⟩
      | succ n =>
          refine ⟨c :: l, r, ?_, hr⟩
          have hle : utf16Count c ≤ n + 1 := by omega
          have hrest : n + 1 - utf16Count c = utf16Count cs.flatten := by omega
          rw [splitUtf16, if_pos hle, hrest, hsplit]
          rfl

end Text

open Text

/-- The Unicode tables: how a text falls into characters, and which scalars are decimal digits. -/
structure Unicode where
  characters : Text → List Text
  decimalDigit : Char → Bool
  flatten_characters : ∀ t, (characters t).flatten = t
  length_characters_append : ∀ s t, (characters s).length ≤ (characters (s ++ t)).length
  characters_plain : ∀ t : Text, (∀ c ∈ t, decimalDigit c = true ∨ printable c = true) →
    characters t = t.map fun c => [c]
  decimalDigit_printable : ∀ c, printable c = true → decimalDigit c = c.isDigit

namespace Unicode

variable (u : Unicode)

/-- The length of a text in characters. -/
def count (t : Text) : ℕ := (u.characters t).length

/-- The decimal digits of a text. -/
def digits (t : Text) : Text := t.filter u.decimalDigit

/-- The pieces of a text between the scalars that are no decimal digits. -/
def components (t : Text) : List Text := t.splitOnP fun c => !u.decimalDigit c

/-- What is before, in and after a range; there is nothing if the range does not start and end
between characters of the text. -/
def range (t : Text) (r : NSRange) : Option (Text × Text × Text) := do
  let p ← splitUtf16 r.location (u.characters t)
  let q ← splitUtf16 r.length p.2
  some (p.1.flatten, q.1.flatten, q.2.flatten)

/-- The text with a range of it replaced. -/
def replacingCharacters (t : Text) (r : NSRange) (string : Text) : Option Text :=
  (u.range t r).map fun p => p.1 ++ string ++ p.2.2

/-- The place after the first `n` characters. -/
def index (t : Text) (n : ℕ) : Option ℕ := if n ≤ u.count t then some n else none

/-- The characters from the place `i` to the place `j`. -/
def substring (t : Text) (i j : ℕ) : Option Text :=
  if i ≤ j ∧ j ≤ u.count t then some (((u.characters t).drop i).take (j - i)).flatten else none

/-- The text is made of decimal digits and printable ASCII. -/
def Plain (t : Text) : Prop := ∀ c ∈ t, u.decimalDigit c = true ∨ printable c = true

variable {u} {s t : Text}

/-! ### Digits -/

@[simp] theorem digits_nil : u.digits [] = [] := rfl

@[simp] theorem digits_append (s t : Text) : u.digits (s ++ t) = u.digits s ++ u.digits t :=
  List.filter_append s t

theorem mem_digits {c : Char} : c ∈ u.digits t ↔ c ∈ t ∧ u.decimalDigit c = true :=
  List.mem_filter

theorem digits_eq_self (h : ∀ c ∈ t, u.decimalDigit c = true) : u.digits t = t :=
  List.filter_eq_self.mpr h

theorem digits_eq_nil (h : ∀ c ∈ t, u.decimalDigit c = false) : u.digits t = [] := by
  refine List.filter_eq_nil_iff.mpr ?_
  intro c hc
  simp [h c hc]

@[simp] theorem digits_digits (t : Text) : u.digits (u.digits t) = u.digits t :=
  digits_eq_self fun _ hc => (mem_digits.mp hc).2

/-- Joining the pieces between the other scalars gives the digits. -/
theorem digits_components (t : Text) : (u.components t).flatten = u.digits t := by
  unfold components
  induction t with
  | nil => rfl
  | cons c t ih =>
      rw [List.splitOnP_cons_eq_if_modifyHead]
      cases hd : u.decimalDigit c with
      | false => simpa [digits, hd] using ih
      | true =>
          have hne : t.splitOnP (fun c => !u.decimalDigit c) ≠ [] := List.splitOnP_ne_nil _ _
          obtain ⟨piece, pieces, hsplit⟩ := List.exists_cons_of_ne_nil hne
          rw [hsplit] at ih ⊢
          simpa [digits, hd] using ih

/-! ### Plain texts -/

theorem plain_digits (t : Text) : u.Plain (u.digits t) :=
  fun _ hc => Or.inl (mem_digits.mp hc).2

theorem characters_of_plain (h : u.Plain t) : u.characters t = t.map fun c => [c] :=
  u.characters_plain t h

theorem count_plain (h : u.Plain t) : u.count t = t.length := by
  unfold count
  rw [characters_of_plain h, List.length_map]

@[simp] theorem count_digits (t : Text) : u.count (u.digits t) = (u.digits t).length :=
  count_plain (plain_digits t)

theorem index_plain (h : u.Plain t) {n : ℕ} (hn : n ≤ t.length) : u.index t n = some n := by
  unfold index
  rw [count_plain h, if_pos hn]

theorem substring_plain (h : u.Plain t) {i j : ℕ} (hij : i ≤ j) (hj : j ≤ t.length) :
    u.substring t i j = some ((t.drop i).take (j - i)) := by
  unfold substring
  rw [count_plain h, if_pos ⟨hij, hj⟩, characters_of_plain h, ← List.map_drop, ← List.map_take,
    ← List.flatMap_def, List.flatMap_singleton']

/-! ### Ranges -/

/-- The three parts of a text at a range. -/
theorem range_append {r : NSRange} {before selected after : Text}
    (h : u.range t r = some (before, selected, after)) : t = before ++ selected ++ after := by
  unfold range at h
  obtain ⟨⟨p₁, p₂⟩, hp, h⟩ := Option.bind_eq_some_iff.mp h
  obtain ⟨⟨q₁, q₂⟩, hq, h⟩ := Option.bind_eq_some_iff.mp h
  have hcut : p₁ ++ p₂ = u.characters t := splitUtf16_append hp
  have hcut' : q₁ ++ q₂ = p₂ := splitUtf16_append hq
  have htext : t = p₁.flatten ++ q₁.flatten ++ q₂.flatten := by
    rw [← u.flatten_characters t, ← hcut, ← hcut', List.flatten_append, List.flatten_append,
      List.append_assoc]
  cases Option.some.inj h
  exact htext

/-- A replacement keeps what is before and after the range. -/
theorem replacingCharacters_append {r : NSRange} {string newString : Text}
    (h : u.replacingCharacters t r string = some newString) :
    ∃ before selected after, t = before ++ selected ++ after ∧
      newString = before ++ string ++ after := by
  obtain ⟨⟨before, selected, after⟩, hparts, hnew⟩ := Option.map_eq_some_iff.mp h
  exact ⟨before, selected, after, range_append hparts, hnew.symm⟩

theorem replacingCharacters_end (t string : Text) :
    u.replacingCharacters t ⟨utf16Count t, 0⟩ string = some (t ++ string) := by
  obtain ⟨l, r, hsplit, hr⟩ := splitUtf16_end (u.characters t)
  have hl : l.flatten = t := by
    have hcut := congrArg List.flatten (splitUtf16_append hsplit)
    rw [List.flatten_append, hr, List.append_nil, u.flatten_characters] at hcut
    exact hcut
  rw [u.flatten_characters] at hsplit
  have hzero : splitUtf16 0 r = some ([], r) := by
    cases r <;> rfl
  unfold replacingCharacters range
  simp [hsplit, hzero, hl, hr]

theorem count_le_append (s t : Text) : u.count s ≤ u.count (s ++ t) :=
  u.length_characters_append s t

/-! ### A plain instance -/

/-- Every scalar a character, and the digits those of ASCII. -/
def scalars : Unicode where
  characters t := t.map fun c => [c]
  decimalDigit := Char.isDigit
  flatten_characters := List.flatMap_singleton'
  length_characters_append := by
    intro s t
    simp
  characters_plain := by
    intro t _
    rfl
  decimalDigit_printable := by
    intro c _
    rfl

end Unicode
