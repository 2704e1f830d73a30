import CommServe.Method
import CommServe.Text
import Mathlib.Data.List.TakeDrop

/-! # The mask of the phone number

`phoneMask` is what both controllers with a phone field call from
`textField(_:shouldChangeCharactersIn:replacementString:)`.  It looks at the text the edit would lead
to and leaves through one of four exits: the field is cleared, the edit is let through as it is, it is
dropped, or the field is given the digits of the new text in the format `+X(XXX) XXX-XXXX`.
`edit_cases` says when it takes which.

The first two exits are for the backspace key, but what is compared are lengths: an edit that replaces
a selection by something shorter takes them as well. -/

namespace CommServe

open Method Text

/-- Why the mask can trap. -/
inductive PhoneTrap where
  /-- `Range(range, in: oldString)!` -/
  | range
  /-- `numString.index(_:offsetBy:)` or the range of two such places. -/
  | index
deriving DecidableEq, Repr

/-- What `phoneMask` returns. -/
structure PhoneMask where
  result : Bool
  phoneNumber : Text
  maskPhoneNumber : Text
deriving DecidableEq, Repr

/-- The phone field of a controller, and the controller's copy of the number. -/
structure PhoneField where
  text : Text
  isEditing : Bool
  myPhoneNumber : Text
deriving DecidableEq, Repr

namespace PhoneField

variable (u : Unicode)

/-- `String(numString[indexStart..<indexEnd])` with the places at the offsets `i` and `j`. -/
def slice (numString : Text) (i j : ℕ) : Method PhoneField PhoneTrap Text := do
  let indexStart ← unwrap .index (u.index numString i)
  let indexEnd ← unwrap .index (u.index numString j)
  unwrap .index (u.substring numString indexStart indexEnd)

/-- The first block of `maskString`, there if there is a digit. -/
def firstBlock (numString : Text) : Method PhoneField PhoneTrap Text :=
  if 0 < u.count numString then do
    let piece ← slice u numString 0 1
    pure (['+'] ++ piece ++ ['('])
  else pure []

/-- A block of `maskString` that is there from more than `start` digits on: the digits up to
`endOffset` and the template, or the digits there are. -/
def block (numString : Text) (start endOffset : ℕ) (template : Text) :
    Method PhoneField PhoneTrap Text :=
  if start < u.count numString then do
    let piece ←
      if u.count numString < endOffset then slice u numString start (u.count numString)
      else slice u numString start endOffset
    pure (piece ++ if u.count numString < endOffset then [] else template)
  else pure []

/-- The last block of `maskString`: what is left after `nIndex = 7` digits. -/
def lastBlock (numString : Text) : Method PhoneField PhoneTrap Text :=
  if 7 < u.count numString then slice u numString 7 (u.count numString) else pure []

/-- The digits of `newString`, put together for the field. -/
def maskString (newString numString : Text) : Method PhoneField PhoneTrap Text := do
  -- allow add "+" if first Char
  let plus := if newString = ['+'] then ['+'] else []
  let first ← firstBlock u numString
  let second ← block u numString 1 4 [')', ' ']
  let third ← block u numString 4 7 ['-']
  let last ← lastBlock u numString
  pure (plus ++ first ++ second ++ third ++ last)

/-- `maxCharInPhone`. -/
def maxCharInPhone : ℕ := 11

/-- `phoneMask(phoneTextField:textField:_:_:)`. -/
def phoneMask (range : NSRange) (string : Text) : Method PhoneField PhoneTrap PhoneMask := do
  let self ← state
  let oldString := self.text
  let newString ← unwrap .range (u.replacingCharacters oldString range string)
  -- in numString only Numeric characters
  let numString := (u.components newString).flatten
  let length := u.count numString
  if u.count newString < u.count oldString then
    -- backspace to work
    if u.count newString ≤ 2 then do
      modify fun self => { self with text := [] }
      pure ⟨false, [], []⟩
    else pure ⟨true, numString, newString⟩
  else if maxCharInPhone < length then
    -- input is complete, do not add characters
    pure ⟨false, numString, newString⟩
  else do
    let mask ← maskString u newString numString
    modify fun self => { self with text := mask }
    if length = maxCharInPhone then do
      -- `phoneTextField.endEditing(true)`
      modify fun self => { self with isEditing := false }
      pure ⟨false, numString, newString⟩
    else pure ⟨false, numString, newString⟩

/-- `textField(_:shouldChangeCharactersIn:replacementString:)`, the same in `SignUpController` and in
`UserInfoController`. -/
def shouldChangeCharactersIn (range : NSRange) (string : Text) :
    Method PhoneField PhoneTrap Bool := do
  let res ← phoneMask u range string
  modify fun self => { self with
    myPhoneNumber := if res.phoneNumber ≠ [' '] then ['+'] ++ res.phoneNumber ++ [' '] else [' '] }
  pure res.result

/-- The country code that an empty field starts with. -/
def prefill : Text := ['+', '1', ' ', '(']

/-- `textFieldDidBeginEditing`, the same in both controllers. -/
def textFieldDidBeginEditing (field : PhoneField) : PhoneField :=
  { field with isEditing := true, text := if field.text = [] then prefill else field.text }

end PhoneField

/-- The phone field on the screen. -/
structure PhoneScreen where
  field : PhoneField
  crashed : Option PhoneTrap
deriving DecidableEq, Repr

/-- What can happen to the phone field. -/
inductive PhoneEvent where
  | textFieldDidBeginEditing
  /-- The characters in `range` are to be replaced: typing, deleting, pasting, cutting. -/
  | edit (range : NSRange) (string : Text)
deriving DecidableEq, Repr

namespace PhoneScreen

/-- The field as a controller sets it up: `UserInfoController` puts the stored phone into it,
`SignUpController` nothing. -/
def opened (phone : Text) : PhoneScreen := ⟨⟨phone, false, []⟩, none⟩

def textFieldDidBeginEditing (s : PhoneScreen) : PhoneScreen :=
  { s with field := s.field.textFieldDidBeginEditing }

variable (u : Unicode)

/-- UIKit asks the delegate and applies the replacement if the answer is true. -/
def edit (s : PhoneScreen) (range : NSRange) (string : Text) : PhoneScreen :=
  let r := (PhoneField.shouldChangeCharactersIn u range string).run s.field
  match r.1, u.replacingCharacters r.2.text range string with
  | .ok true, some newString => ⟨{ r.2 with text := newString }, none⟩
  | _, _ => ⟨r.2, trap r.1⟩

/-- One step of the screen: any range of characters can be edited; nothing happens after a crash. -/
def step (s : PhoneScreen) : PhoneEvent → Option PhoneScreen
  | .textFieldDidBeginEditing =>
      if s.crashed = none then some s.textFieldDidBeginEditing else none
  | .edit range string =>
      if s.crashed = none ∧ (u.range s.field.text range).isSome then some (s.edit u range string)
      else none

end PhoneScreen

/-! ### The format -/

/-- What the field is for: a phone number of at most 11 digits. -/
structure IsPhoneNumber (u : Unicode) (digits : Text) : Prop where
  all_digits : ∀ c ∈ digits, u.decimalDigit c = true
  length_le : digits.length ≤ 11

/-- Digits in the format `+X(XXX) XXX-XXXX`, as far as they go. -/
def fmt (digits : Text) : Text :=
  ['+'] ++ digits.take 1 ++ ['('] ++
    ((digits.drop 1).take 3 ++ if 4 ≤ digits.length then [')', ' '] else []) ++
    ((digits.drop 4).take 3 ++ if 7 ≤ digits.length then ['-'] else []) ++ (digits.drop 7).take 4

/-- The characters of the format that are no digits. -/
def separators : Text := ['+', '(', ')', '-', ' ']

/-- The characters of a phone number. -/
def permitted (u : Unicode) (c : Char) : Prop := u.decimalDigit c = true ∨ c ∈ separators

instance (u : Unicode) (c : Char) : Decidable (permitted u c) :=
  inferInstanceAs (Decidable (u.decimalDigit c = true ∨ c ∈ separators))

-- goes through the text, where another instance would go through all characters
instance (u : Unicode) (t : Text) : Decidable (∀ c ∈ t, permitted u c) :=
  List.decidableBAll _ t

/-- The text is no more than a phone number. -/
structure PhoneText (u : Unicode) (text : Text) : Prop where
  all_permitted : ∀ c ∈ text, permitted u c
  digits_le : (u.digits text).length ≤ 11

section Format

variable {u : Unicode} {d t : Text}

theorem isPhoneNumber_digits (h : (u.digits t).length ≤ 11) : IsPhoneNumber u (u.digits t) where
  all_digits := fun _ hc => (Unicode.mem_digits.mp hc).2
  length_le := h

theorem printable_separator {c : Char} (hc : c ∈ separators) : printable c = true := by
  have hall : separators.all printable = true := by decide
  exact List.all_eq_true.mp hall c hc

theorem decimalDigit_separator {c : Char} (hc : c ∈ separators) : u.decimalDigit c = false := by
  have hall : separators.all (fun c => !c.isDigit) = true := by decide
  have hdigit : (!c.isDigit) = true := List.all_eq_true.mp hall c hc
  rw [u.decimalDigit_printable c (printable_separator hc)]
  simpa using hdigit

theorem digits_template {template : Text} (h : template ⊆ separators) : u.digits template = [] :=
  Unicode.digits_eq_nil fun _ hc => decimalDigit_separator (h hc)

theorem optional_subset {p : Prop} [Decidable p] {template : Text} (h : template ⊆ separators) :
    (if p then template else []) ⊆ separators := by
  split_ifs
  · exact h
  · exact List.nil_subset _

theorem digits_take_drop (hd : IsPhoneNumber u d) (i n : ℕ) :
    u.digits ((d.drop i).take n) = (d.drop i).take n :=
  Unicode.digits_eq_self fun c hc =>
    hd.all_digits c (List.mem_of_mem_drop (List.mem_of_mem_take hc))

theorem take_drop_end {i n : ℕ} (h : d.length ≤ i + n) : (d.drop i).take n = d.drop i := by
  apply List.take_of_length_le
  rw [List.length_drop]
  omega

theorem blocks_append (h : d.length ≤ 11) :
    d.take 1 ++ ((d.drop 1).take 3 ++ ((d.drop 4).take 3 ++ (d.drop 7).take 4)) = d := by
  have hlast : (d.drop 7).take 4 = d.drop 7 := take_drop_end (by omega)
  rw [hlast, List.drop_take_append_drop d 4 3, List.drop_take_append_drop d 1 3, List.take_append_drop]

theorem digits_fmt (hd : IsPhoneNumber u d) : u.digits (fmt d) = d := by
  have hplus : u.digits ['+'] = [] := digits_template (by decide)
  have hopen : u.digits ['('] = [] := digits_template (by decide)
  have hclose : u.digits (if 4 ≤ d.length then [')', ' '] else []) = [] :=
    digits_template (optional_subset (by decide))
  have hdash : u.digits (if 7 ≤ d.length then ['-'] else []) = [] :=
    digits_template (optional_subset (by decide))
  have hfirst : u.digits (d.take 1) = d.take 1 := digits_take_drop hd 0 1
  unfold fmt
  simp only [Unicode.digits_append, hplus, hopen, hclose, hdash, hfirst, digits_take_drop hd,
    List.nil_append, List.append_assoc]
  exact blocks_append hd.length_le

/-- What the mask makes of the text `newString`. -/
def masked (u : Unicode) (newString : Text) : Text :=
  (if newString = ['+'] then ['+'] else []) ++
    if u.digits newString = [] then [] else fmt (u.digits newString)

/-- The mask keeps the digits. -/
theorem digits_masked (h : (u.digits t).length ≤ 11) : u.digits (masked u t) = u.digits t := by
  have hplus : u.digits (if t = ['+'] then ['+'] else []) = [] :=
    digits_template (optional_subset (by decide))
  unfold masked
  rw [Unicode.digits_append, hplus, List.nil_append]
  split_ifs with hd
  · rw [hd, Unicode.digits_nil]
  · exact digits_fmt (isPhoneNumber_digits h)

/-- A text with digits is given the format. -/
theorem masked_of_digits (h : u.digits t ≠ []) : masked u t = fmt (u.digits t) := by
  have hne : t ≠ ['+'] := by
    rintro rfl
    exact h (digits_template (by decide))
  unfold masked
  rw [if_neg hne, if_neg h, List.nil_append]

theorem permitted_template {template : Text} (h : template ⊆ separators) :
    ∀ c ∈ template, permitted u c :=
  fun _ hc => Or.inr (h hc)

theorem permitted_fmt (hd : ∀ c ∈ d, u.decimalDigit c = true) : ∀ c ∈ fmt d, permitted u c := by
  have hblock : ∀ i n, ∀ c ∈ (d.drop i).take n, permitted u c := by
    intro i n c hc
    exact Or.inl (hd c (List.mem_of_mem_drop (List.mem_of_mem_take hc)))
  have hclose : ∀ c ∈ if 4 ≤ d.length then [')', ' '] else [], permitted u c :=
    permitted_template (optional_subset (by decide))
  have hdash : ∀ c ∈ if 7 ≤ d.length then ['-'] else [], permitted u c :=
    permitted_template (optional_subset (by decide))
  unfold fmt
  simp only [List.forall_mem_append]
  refine ⟨⟨⟨⟨⟨?_, ?_⟩, ?_⟩, ?_, hclose⟩, ?_, hdash⟩, ?_⟩
  · exact permitted_template (by decide)
  · exact hblock 0 1
  · exact permitted_template (by decide)
  · exact hblock 1 3
  · exact hblock 4 3
  · exact hblock 7 4

theorem two_lt_length_fmt (h : d ≠ []) : 2 < (fmt d).length := by
  have hpos := List.length_pos_of_ne_nil h
  unfold fmt
  simp only [List.length_append, List.length_take, List.length_singleton]
  omega

theorem plain_of_permitted (h : ∀ c ∈ t, permitted u c) : u.Plain t := by
  intro c hc
  rcases h c hc with hdigit | htemplate
  · exact Or.inl hdigit
  · exact Or.inr (printable_separator htemplate)

theorem PhoneText.nil : PhoneText u [] := ⟨by simp, by simp⟩

theorem PhoneText.masked (h : (u.digits t).length ≤ 11) : PhoneText u (masked u t) where
  all_permitted := by
    unfold CommServe.masked
    rw [List.forall_mem_append]
    constructor
    · exact permitted_template (optional_subset (by decide))
    · split_ifs
      · exact permitted_template (by decide)
      · exact permitted_fmt (isPhoneNumber_digits h).all_digits
  digits_le := by
    rw [digits_masked h]
    exact h

theorem decimalDigit_one : u.decimalDigit '1' = true := by
  rw [u.decimalDigit_printable '1' (by decide)]
  decide

end Format

/-! ### The body of the mask -/

namespace PhoneField

variable {u : Unicode} {d : Text} {field : PhoneField}

theorem slice_run (hd : u.Plain d) {i j : ℕ} (hij : i ≤ j) (hj : j ≤ d.length) :
    (slice u d i j).run field = (.ok ((d.drop i).take (j - i)), field) := by
  have hstart : u.index d i = some i := Unicode.index_plain hd (by omega)
  have hend : u.index d j = some j := Unicode.index_plain hd hj
  unfold slice
  rw [hstart, bind_ok (run_unwrap_some _ _ _), hend, bind_ok (run_unwrap_some _ _ _),
    Unicode.substring_plain hd hij hj, run_unwrap_some]

/-- A block holds the digits there are; the template comes with the last of them. -/
theorem block_run (hd : u.Plain d) {start endOffset : ℕ} (hstart : start < endOffset)
    (template : Text) :
    (block u d start endOffset template).run field =
      (.ok ((d.drop start).take (endOffset - start) ++
        if endOffset ≤ d.length then template else []), field) := by
  unfold block
  rw [Unicode.count_plain hd]
  by_cases hlt : start < d.length
  · rw [if_pos hlt]
    by_cases hshort : d.length < endOffset
    · have hrest : (d.drop start).take (d.length - start) =
          (d.drop start).take (endOffset - start) := by
        rw [take_drop_end (by omega), take_drop_end (by omega)]
      have hend : ¬ endOffset ≤ d.length := by omega
      rw [if_pos hshort, bind_ok (slice_run hd (by omega) (Nat.le_refl _)), hrest, if_pos hshort,
        if_neg hend, run_pure]
    · have hend : endOffset ≤ d.length := by omega
      rw [if_neg hshort, bind_ok (slice_run hd (by omega) hend), if_neg hshort, if_pos hend,
        run_pure]
  · have hnil : d.drop start = [] := List.drop_eq_nil_of_le (by omega)
    have hend : ¬ endOffset ≤ d.length := by omega
    rw [if_neg hlt, run_pure, hnil, if_neg hend, List.take_nil, List.append_nil]

theorem firstBlock_run (hd : u.Plain d) : (firstBlock u d).run field =
    (.ok (if d = [] then [] else ['+'] ++ d.take 1 ++ ['(']), field) := by
  unfold firstBlock
  rw [Unicode.count_plain hd]
  split_ifs with hpos hnil hnil
  · rw [hnil] at hpos
    exact absurd hpos (by simp)
  · rw [bind_ok (slice_run hd (by omega) hpos)]
    rfl
  · rfl
  · exact absurd (List.length_pos_of_ne_nil hnil) hpos

theorem lastBlock_run (hd : u.Plain d) (h : d.length ≤ 11) :
    (lastBlock u d).run field = (.ok ((d.drop 7).take 4), field) := by
  unfold lastBlock
  rw [Unicode.count_plain hd]
  split_ifs with hlt
  · have hrest : (d.drop 7).take (d.length - 7) = (d.drop 7).take 4 := by
      rw [take_drop_end (by omega), take_drop_end (by omega)]
    rw [slice_run hd (by omega) (Nat.le_refl _), hrest]
  · have hnil : d.drop 7 = [] := List.drop_eq_nil_of_le (by omega)
    rw [run_pure, hnil, List.take_nil]

/-- No place is out of range, and the text is the masked one. -/
theorem maskString_run {newString : Text} (h : (u.digits newString).length ≤ 11) :
    (maskString u newString (u.digits newString)).run field =
      (.ok (masked u newString), field) := by
  have hplain : u.Plain (u.digits newString) := Unicode.plain_digits newString
  unfold maskString masked
  dsimp only
  generalize u.digits newString = d at h hplain
  rw [bind_ok (firstBlock_run hplain), bind_ok (block_run hplain (by omega) _),
    bind_ok (block_run hplain (by omega) _), bind_ok (lastBlock_run hplain h), run_pure]
  cases d with
  | nil => simp
  | cons c d => simp [fmt]

/-- **The four exits**: the mask never traps on a range of the text. -/
theorem phoneMask_run {range : NSRange} {string newString : Text}
    (hN : u.replacingCharacters field.text range string = some newString) :
    (phoneMask u range string).run field =
      if u.count newString < u.count field.text then
        if u.count newString ≤ 2 then (.ok ⟨false, [], []⟩, { field with text := [] })
        else (.ok ⟨true, u.digits newString, newString⟩, field)
      else if 11 < (u.digits newString).length then
        (.ok ⟨false, u.digits newString, newString⟩, field)
      else (.ok ⟨false, u.digits newString, newString⟩, { field with
        text := masked u newString
        isEditing := if (u.digits newString).length = 11 then false else field.isEditing }) := by
  unfold phoneMask
  rw [bind_ok (run_state field)]
  dsimp only
  rw [hN, bind_ok (run_unwrap_some _ _ _)]
  simp only [Unicode.digits_components, Unicode.count_digits, maxCharInPhone]
  by_cases hshort : u.count newString < u.count field.text
  · rw [if_pos hshort, if_pos hshort]
    by_cases htwo : u.count newString ≤ 2
    · rw [if_pos htwo, if_pos htwo, bind_ok (run_modify _ _), run_pure]
    · rw [if_neg htwo, if_neg htwo, run_pure]
  · rw [if_neg hshort, if_neg hshort]
    by_cases hlong : 11 < (u.digits newString).length
    · rw [if_pos hlong, if_pos hlong, run_pure]
    · rw [if_neg hlong, if_neg hlong, bind_ok (maskString_run (by omega)),
        bind_ok (run_modify _ _)]
      by_cases hfull : (u.digits newString).length = 11
      · rw [if_pos hfull, if_pos hfull, bind_ok (run_modify _ _), run_pure]
      · rw [if_neg hfull, if_neg hfull, run_pure]

theorem digits_prefill : u.digits prefill = ['1'] := by
  have hplus : u.digits ['+'] = [] := digits_template (by decide)
  have hopen : u.digits [' ', '('] = [] := digits_template (by decide)
  have hone : u.digits ['1'] = ['1'] := Unicode.digits_eq_self (by simp [decimalDigit_one])
  show u.digits (['+'] ++ ['1'] ++ [' ', '(']) = ['1']
  rw [Unicode.digits_append, Unicode.digits_append, hplus, hone, hopen]
  rfl

theorem phoneText_prefill : PhoneText u prefill where
  all_permitted := by
    show ∀ c ∈ ['+'] ++ ['1'] ++ [' ', '('], permitted u c
    simp only [List.forall_mem_append]
    refine ⟨⟨permitted_template (by decide), ?_⟩, permitted_template (by decide)⟩
    intro c hc
    rw [List.mem_singleton.mp hc]
    exact Or.inl decimalDigit_one
  digits_le := by simp [digits_prefill]

/-- The field with another text, and the copy of the number made from `digits`. -/
def shows (field : PhoneField) (text digits : Text) : PhoneField :=
  { field with text := text, myPhoneNumber := ['+'] ++ digits ++ [' '] }

@[simp] theorem text_shows (text digits : Text) : (field.shows text digits).text = text := rfl

theorem digits_shows (text t : Text) :
    u.digits (field.shows text (u.digits t)).myPhoneNumber = u.digits t := by
  have hplus : u.digits ['+'] = [] := digits_template (by decide)
  have hspace : u.digits [' '] = [] := digits_template (by decide)
  show u.digits (['+'] ++ u.digits t ++ [' ']) = u.digits t
  rw [Unicode.digits_append, Unicode.digits_append, hplus, hspace, Unicode.digits_digits,
    List.nil_append, List.append_nil]

theorem shouldChangeCharactersIn_run {range : NSRange} {string t newString : Text} {result : Bool}
    {field' : PhoneField}
    (hmask : (phoneMask u range string).run field = (.ok ⟨result, u.digits t, newString⟩, field')) :
    (shouldChangeCharactersIn u range string).run field =
      (.ok result, field'.shows field'.text (u.digits t)) := by
  have hspace : u.digits t ≠ [' '] := by
    intro h
    have hmem : ' ' ∈ u.digits t := by simp [h]
    have hdigit : u.decimalDigit ' ' = true := (Unicode.mem_digits.mp hmem).2
    rw [decimalDigit_separator (by decide)] at hdigit
    cases hdigit
  unfold shouldChangeCharactersIn
  rw [bind_ok hmask, bind_ok (run_modify _ _), run_pure, if_pos hspace]
  rfl

end PhoneField

/-! ### The screen -/

namespace PhoneScreen

open PhoneField

variable {u : Unicode} {s s' : PhoneScreen} {range : NSRange} {string newString : Text}

/-- What an edit leads to. -/
theorem edit_cases (hN : u.replacingCharacters s.field.text range string = some newString) :
    (u.count newString < u.count s.field.text ∧ u.count newString ≤ 2 ∧
      s.edit u range string = ⟨s.field.shows [] [], none⟩) ∨
    (u.count newString < u.count s.field.text ∧ 2 < u.count newString ∧
      s.edit u range string = ⟨s.field.shows newString (u.digits newString), none⟩) ∨
    (u.count s.field.text ≤ u.count newString ∧ 11 < (u.digits newString).length ∧
      s.edit u range string = ⟨s.field.shows s.field.text (u.digits newString), none⟩) ∨
    (u.count s.field.text ≤ u.count newString ∧ (u.digits newString).length ≤ 11 ∧
      ∃ isEditing, s.edit u range string =
        ⟨{ s.field with isEditing := isEditing }.shows (masked u newString) (u.digits newString),
          none⟩) := by
  have hmask := phoneMask_run hN
  unfold edit
  by_cases hshort : u.count newString < u.count s.field.text
  · rw [if_pos hshort] at hmask
    by_cases htwo : u.count newString ≤ 2
    · rw [if_pos htwo] at hmask
      refine Or.inl ⟨hshort, htwo, ?_⟩
      have hrun := @shouldChangeCharactersIn_run u _ range string [] _ _ _ hmask
      rw [hrun]
      rfl
    · rw [if_neg htwo] at hmask
      refine Or.inr (Or.inl ⟨hshort, by omega, ?_⟩)
      rw [shouldChangeCharactersIn_run hmask]
      dsimp only [text_shows]
      rw [hN]
      rfl
  · rw [if_neg hshort] at hmask
    by_cases hlong : 11 < (u.digits newString).length
    · rw [if_pos hlong] at hmask
      refine Or.inr (Or.inr (Or.inl ⟨by omega, hlong, ?_⟩))
      rw [shouldChangeCharactersIn_run hmask]
      rfl
    · rw [if_neg hlong] at hmask
      refine Or.inr (Or.inr (Or.inr ⟨by omega, by omega, ?_⟩))
      rw [shouldChangeCharactersIn_run hmask]
      exact ⟨_, rfl⟩

theorem step_begin : step u s .textFieldDidBeginEditing = some s' ↔
    s.crashed = none ∧ s' = s.textFieldDidBeginEditing := by
  unfold step
  constructor
  · intro h
    split_ifs at h with hlive
    exact ⟨hlive, (Option.some.inj h).symm⟩
  · rintro ⟨hlive, rfl⟩
    exact if_pos hlive

theorem step_edit : step u s (.edit range string) = some s' ↔ s.crashed = none ∧
    ∃ newString, u.replacingCharacters s.field.text range string = some newString ∧
      s' = s.edit u range string := by
  unfold step
  dsimp only
  constructor
  · intro h
    split_ifs at h with hlive
    obtain ⟨p, hp⟩ := Option.isSome_iff_exists.mp hlive.2
    refine ⟨hlive.1, p.1 ++ string ++ p.2.2, ?_, (Option.some.inj h).symm⟩
    rw [Unicode.replacingCharacters, hp, Option.map_some]
  · rintro ⟨hlive, newString, hN, rfl⟩
    obtain ⟨p, hp, -⟩ := Option.map_eq_some_iff.mp hN
    exact if_pos ⟨hlive, by rw [hp, Option.isSome_some]⟩

end PhoneScreen

end CommServe
