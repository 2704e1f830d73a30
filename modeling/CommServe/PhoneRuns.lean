import CommServe.Transition
import CommServe.Phone

/-! # Runs of the phone field

Four questions about any sequence of edits: whether the field holds no more than a phone number, whether
the digits that are typed arrive, whether the controller's copy agrees with the field, and whether it
matters in which pieces a number is entered.  For the first three the answer is no on some runs; for each
there is a condition on single edits, and the property holds on a run exactly if all its edits meet the
condition (`phoneText_always_iff`, `keepsDigits_iff`, `editMirrors_iff`).  The pieces do not matter:
a text that is entered at the end is masked to the format of its digits (`appendAll_eq_fmt`). -/

namespace CommServe

open Text Transition

namespace PhoneScreen

open PhoneField

variable {u : Unicode} {s s' : PhoneScreen} {range : NSRange} {string newString : Text}

/-- `SignUpController` starts with an empty field, or with the country code as soon as it is edited. -/
def Fresh (s : PhoneScreen) : Prop := s = opened [] ∨ s = (opened []).textFieldDidBeginEditing

/-- **No trap**: whatever ranges of the text are edited, the mask reaches its end. -/
theorem crashed_of_run {es : List PhoneEvent} (h : s.crashed = none)
    (hr : Run (step u) (fun _ _ => True) s es s') : s'.crashed = none := by
  refine hr.invariant (fun s => s.crashed = none) ?_ h
  intro s e s' h _ hs
  cases e with
  | textFieldDidBeginEditing =>
      obtain ⟨hlive, rfl⟩ := step_begin.mp hs
      exact hlive
  | edit range string =>
      obtain ⟨-, newString, hN, rfl⟩ := step_edit.mp hs
      rcases edit_cases hN with ⟨-, -, heq⟩ | ⟨-, -, heq⟩ | ⟨-, -, heq⟩ | ⟨-, -, _, heq⟩ <;> rw [heq]

/-- A condition on edits: on the text before, the replacement, and the text the edit leads to. -/
def Asks (u : Unicode) (p : Text → Text → Text → Prop) (s : PhoneScreen) : PhoneEvent → Prop
  | .textFieldDidBeginEditing => True
  | .edit range string => ∀ newString ∈ u.replacingCharacters s.field.text range string,
      p s.field.text string newString

instance (u : Unicode) (p : Text → Text → Text → Prop) [∀ old string new, Decidable (p old string new)]
    (s : PhoneScreen) : ∀ e, Decidable (Asks u p s e)
  | .textFieldDidBeginEditing => inferInstanceAs (Decidable True)
  | .edit range string => inferInstanceAs (Decidable (∀ newString ∈
      u.replacingCharacters s.field.text range string, p s.field.text string newString))

theorem forall_mem_some {t : Text} {p : Text → Prop} : (∀ a ∈ some t, p a) ↔ p t := by
  simp

theorem asks_edit {p : Text → Text → Text → Prop}
    (hN : u.replacingCharacters s.field.text range string = some newString) :
    Asks u p s (.edit range string) ↔ p s.field.text string newString := by
  rw [Asks, hN, forall_mem_some]

/-! ### What the field can hold -/

/-- An edit that makes the text shorter, but not to two characters or less, brings in characters of a
phone number only and leaves at most 11 digits. -/
def BringsPhone (u : Unicode) : PhoneScreen → PhoneEvent → Prop :=
  Asks u fun oldString string newString =>
    u.count newString < u.count oldString → 2 < u.count newString →
      (∀ c ∈ string, permitted u c) ∧ (u.digits newString).length ≤ 11

instance (u : Unicode) (s : PhoneScreen) (e : PhoneEvent) : Decidable (BringsPhone u s e) :=
  inferInstanceAs (Decidable (Asks u _ s e))

theorem phoneText_replace_iff (h : PhoneText u s.field.text)
    (hN : u.replacingCharacters s.field.text range string = some newString) :
    PhoneText u newString ↔
      (∀ c ∈ string, permitted u c) ∧ (u.digits newString).length ≤ 11 := by
  obtain ⟨before, selected, after, hold, rfl⟩ := Unicode.replacingCharacters_append hN
  have hkept : ∀ c ∈ s.field.text, permitted u c := h.all_permitted
  rw [hold] at hkept
  simp only [List.forall_mem_append] at hkept
  constructor
  · intro hnew
    have hall := hnew.all_permitted
    simp only [List.forall_mem_append] at hall
    exact ⟨hall.1.2, hnew.digits_le⟩
  · rintro ⟨hstring, hdigits⟩
    refine ⟨?_, hdigits⟩
    simp only [List.forall_mem_append]
    exact ⟨⟨hkept.1.1, hstring⟩, hkept.2⟩

theorem phoneText_begin (h : PhoneText u s.field.text) :
    PhoneText u s.textFieldDidBeginEditing.field.text := by
  show PhoneText u (if s.field.text = [] then prefill else s.field.text)
  split_ifs
  · exact phoneText_prefill
  · exact h

theorem Fresh.phoneText (h : s.Fresh) : PhoneText u s.field.text := by
  rcases h with rfl | rfl
  · exact .nil
  · exact phoneText_begin .nil

/-- A step from a phone number: only the exit for the backspace key can lead to something else. -/
theorem phoneText_step_iff (h : PhoneText u s.field.text) {e : PhoneEvent}
    (hs : step u s e = some s') : PhoneText u s'.field.text ↔ BringsPhone u s e := by
  cases e with
  | textFieldDidBeginEditing =>
      obtain ⟨-, rfl⟩ := step_begin.mp hs
      constructor
      · intro _
        trivial
      · intro _
        exact phoneText_begin h
  | edit range string =>
      obtain ⟨-, newString, hN, rfl⟩ := step_edit.mp hs
      rw [BringsPhone, asks_edit hN, ← phoneText_replace_iff h hN]
      rcases edit_cases hN with ⟨hshort, htwo, heq⟩ | ⟨hshort, htwo, heq⟩ | ⟨hlong, -, heq⟩ |
        ⟨hlong, hfits, isEditing, heq⟩ <;> rw [heq]
      · -- cleared
        constructor
        · intro _ _ hthree
          omega
        · intro _
          exact .nil
      · -- let through
        constructor
        · intro hphone _ _
          exact hphone
        · intro hphone
          exact hphone hshort htwo
      · -- dropped
        constructor
        · intro _ hshort
          omega
        · intro _
          exact h
      · -- masked
        constructor
        · intro _ hshort
          omega
        · intro _
          exact .masked hfits

/-- **The field holds no more than a phone number** all along exactly the runs in which every edit that
makes the text shorter, but not to two characters or less, brings in characters of a phone number only
and leaves at most 11 digits. -/
theorem phoneText_always_iff (u : Unicode) {s t : PhoneScreen} {es : List PhoneEvent}
    (hs : s.Fresh) (hr : Run (step u) (fun _ _ => True) s es t) :
    (∀ before later v, es = before ++ later → Run (step u) (fun _ _ => True) s before v →
      PhoneText u v.field.text) ↔ Run (step u) (BringsPhone u) s es t := by
  refine hr.always_iff (fun _ => True) (fun s => PhoneText u s.field.text) ?_ ?_ trivial hs.phoneText
  · intro s e s' _ _
    trivial
  · intro s e s' _ h hs
    exact phoneText_step_iff h hs

/-- Three digits are typed, the mask is deleted with the last character, and a fourth follows. -/
def typingScript : List PhoneEvent :=
  [.textFieldDidBeginEditing, .edit ⟨4, 0⟩ ['3'], .edit ⟨4, 0⟩ ['1', '2'], .edit ⟨7, 1⟩ [],
    .edit ⟨7, 0⟩ ['5']]

theorem typingScript_run (ok : PhoneScreen → PhoneEvent → Prop) [∀ s e, Decidable (ok s e)]
    (h : (exec (step .scalars) ok (opened []) typingScript).any
      (fun t => decide (t.field.text = ['+', '1', '(', '3', '1', '2', ')', ' ', '5'])) = true) :
    ∃ t, Run (step .scalars) (fun _ _ => True) (opened []) typingScript t ∧
      Run (step .scalars) ok (opened []) typingScript t := by
  obtain ⟨t, hr, -⟩ := exists_run_of_exec (step .scalars) ok (opened []) typingScript
    (fun t => t.field.text = ['+', '1', '(', '3', '1', '2', ')', ' ', '5']) h
  exact ⟨t, hr.mono fun _ _ _ => trivial, hr⟩

theorem phoneText_typingScript : ∃ t,
    Run (step .scalars) (fun _ _ => True) (opened []) typingScript t ∧
    ∀ before later v, typingScript = before ++ later →
      Run (step .scalars) (fun _ _ => True) (opened []) before v →
      PhoneText .scalars v.field.text := by
  obtain ⟨t, hall, hr⟩ := typingScript_run (BringsPhone .scalars) (by decide)
  exact ⟨t, hall, (phoneText_always_iff .scalars (Or.inl rfl) hall).mpr hr⟩

/-- Pasting three letters over the country code goes through the exit for the backspace key. -/
theorem letters_let_through : ¬ ∀ (u : Unicode) (s t : PhoneScreen) (es : List PhoneEvent), s.Fresh →
    Run (step u) (fun _ _ => True) s es t → PhoneText u t.field.text := by
  intro h
  obtain ⟨t, hr, htext⟩ := exists_run_of_exec (step .scalars) (fun _ _ => True)
    (opened []).textFieldDidBeginEditing [.edit ⟨0, 4⟩ ['a', 'b', 'c']]
    (fun t => t.field.text = ['a', 'b', 'c']) (by decide)
  have hphone : PhoneText .scalars t.field.text := h .scalars _ t _ (Or.inr rfl) hr
  rw [htext] at hphone
  exact absurd (hphone.all_permitted 'a' (by simp)) (by decide)

/-! ### What becomes of the digits -/

/-- An edit that brings in a digit leaves the field with the digits of the new text, as long as these
are not too many. -/
def KeepsDigits (u : Unicode) (s : PhoneScreen) : PhoneEvent → PhoneScreen → Prop
  | .textFieldDidBeginEditing, _ => True
  | .edit range string, s' => ∀ newString ∈ u.replacingCharacters s.field.text range string,
      u.digits string ≠ [] → (u.digits newString).length ≤ 11 →
        u.digits s'.field.text = u.digits newString

/-- An edit that brings in a digit and makes the text shorter leaves more than two characters. -/
def LeavesThree (u : Unicode) : PhoneScreen → PhoneEvent → Prop :=
  Asks u fun oldString string newString =>
    u.digits string ≠ [] → (u.digits newString).length ≤ 11 →
      u.count newString < u.count oldString → 2 < u.count newString

instance (u : Unicode) (s : PhoneScreen) (e : PhoneEvent) : Decidable (LeavesThree u s e) :=
  inferInstanceAs (Decidable (Asks u _ s e))

theorem digits_replaced_ne_nil
    (hN : u.replacingCharacters s.field.text range string = some newString)
    (h : u.digits string ≠ []) : u.digits newString ≠ [] := by
  obtain ⟨before, selected, after, -, rfl⟩ := Unicode.replacingCharacters_append hN
  simp only [Unicode.digits_append, ne_eq, List.append_eq_nil_iff, not_and]
  intro hnil
  exact absurd hnil.2 h

/-- Only clearing the field swallows digits. -/
theorem keepsDigits_step_iff {e : PhoneEvent} (hs : step u s e = some s') :
    KeepsDigits u s e s' ↔ LeavesThree u s e := by
  cases e with
  | textFieldDidBeginEditing => exact Iff.rfl
  | edit range string =>
      obtain ⟨-, newString, hN, rfl⟩ := step_edit.mp hs
      rw [KeepsDigits, LeavesThree, asks_edit hN, hN, forall_mem_some]
      refine forall_congr' fun hdigit => forall_congr' fun hfits => ?_
      have hne := digits_replaced_ne_nil hN hdigit
      rcases edit_cases hN with ⟨hshort, htwo, heq⟩ | ⟨hshort, htwo, heq⟩ | ⟨hlong, hmany, heq⟩ |
        ⟨hlong, -, isEditing, heq⟩ <;> rw [heq, text_shows]
      · -- cleared
        constructor
        · intro hkept
          exact absurd hkept.symm hne
        · intro h
          have hthree := h hshort
          omega
      · -- let through
        constructor
        · intro _ _
          exact htwo
        · intro _
          rfl
      · -- dropped
        omega
      · -- masked
        constructor
        · intro _ hshort
          omega
        · intro _
          exact digits_masked hfits

/-- **No digit is swallowed** in exactly the runs in which every edit that brings in a digit, leaves at
most 11 of them and makes the text shorter, leaves more than two characters. -/
theorem keepsDigits_iff (u : Unicode) (phone : Text) {t : PhoneScreen} {es : List PhoneEvent}
    (hr : Run (step u) (fun _ _ => True) (opened phone) es t) :
    (∀ before e later v w, es = before ++ e :: later →
      Run (step u) (fun _ _ => True) (opened phone) before v → step u v e = some w →
      KeepsDigits u v e w) ↔ Run (step u) (LeavesThree u) (opened phone) es t :=
  hr.steps_iff (KeepsDigits u) fun _ _ _ hs => keepsDigits_step_iff hs

theorem keepsDigits_typingScript : ∃ t,
    Run (step .scalars) (fun _ _ => True) (opened []) typingScript t ∧
    ∀ before e later v w, typingScript = before ++ e :: later →
      Run (step .scalars) (fun _ _ => True) (opened []) before v → step .scalars v e = some w →
      KeepsDigits .scalars v e w := by
  obtain ⟨t, hall, hr⟩ := typingScript_run (LeavesThree .scalars) (by decide)
  exact ⟨t, hall, (keepsDigits_iff .scalars [] hall).mpr hr⟩

/-- Typing a digit over the selected country code clears the field. -/
theorem digit_swallowed : ¬ ∀ (u : Unicode) (phone : Text) (es : List PhoneEvent)
    (s t : PhoneScreen) (e : PhoneEvent), Run (step u) (fun _ _ => True) (opened phone) es s →
    step u s e = some t → KeepsDigits u s e t := by
  intro h
  obtain ⟨s, hr, htext⟩ := exists_run_of_exec (step .scalars) (fun _ _ => True) (opened [])
    [.textFieldDidBeginEditing] (fun s => s = (opened []).textFieldDidBeginEditing) (by decide)
  subst htext
  have hkept := h .scalars [] _ _ _ (.edit ⟨0, 4⟩ ['5']) hr rfl
  exact absurd (hkept ['5'] (by decide) (by decide) (by decide)) (by decide)

/-! ### The copy of the number -/

/-- The controller's copy of the number has the digits of the field. -/
def Mirrors (u : Unicode) (s : PhoneScreen) : Prop :=
  u.digits s.field.myPhoneNumber = u.digits s.field.text

/-- What is asked of an edit: the copy has the digits of the field afterwards. -/
def EditMirrors (u : Unicode) (_s : PhoneScreen) : PhoneEvent → PhoneScreen → Prop
  | .textFieldDidBeginEditing, _ => True
  | .edit _ _, s' => Mirrors u s'

/-- An edit that does not make the text shorter and leads to more than 11 digits, leads to the digits
that are there. -/
def SameIfDropped (u : Unicode) : PhoneScreen → PhoneEvent → Prop :=
  Asks u fun oldString _ newString =>
    u.count oldString ≤ u.count newString → 11 < (u.digits newString).length →
      u.digits newString = u.digits oldString

instance (u : Unicode) (s : PhoneScreen) (e : PhoneEvent) : Decidable (SameIfDropped u s e) :=
  inferInstanceAs (Decidable (Asks u _ s e))

/-- The copy is made from the digits of the new text, also if the field keeps the old one. -/
theorem editMirrors_step_iff {e : PhoneEvent} (hs : step u s e = some s') :
    EditMirrors u s e s' ↔ SameIfDropped u s e := by
  cases e with
  | textFieldDidBeginEditing => exact Iff.rfl
  | edit range string =>
      obtain ⟨-, newString, hN, rfl⟩ := step_edit.mp hs
      rw [EditMirrors, Mirrors, SameIfDropped, asks_edit hN]
      rcases edit_cases hN with ⟨hshort, -, heq⟩ | ⟨hshort, -, heq⟩ | ⟨hlong, hmany, heq⟩ |
        ⟨hlong, hfits, isEditing, heq⟩ <;> rw [heq]
      · -- cleared
        constructor
        · intro _ hlong
          omega
        · intro _
          exact digits_shows [] []
      · -- let through
        constructor
        · intro _ hlong
          omega
        · intro _
          exact digits_shows newString newString
      · -- dropped
        rw [digits_shows, text_shows]
        constructor
        · intro hsame _ _
          exact hsame
        · intro h
          exact h hlong hmany
      · -- masked
        rw [digits_shows, text_shows, digits_masked hfits]
        constructor
        · intro _ _ hmany
          omega
        · intro _
          rfl

/-- **The copy of the number has the digits of the field** after every edit of exactly the runs in
which every edit that does not make the text shorter and leads to more than 11 digits, leads to the
digits that are there.  The field starts with any text, as it does in `UserInfoController`. -/
theorem editMirrors_iff (u : Unicode) (phone : Text) {t : PhoneScreen} {es : List PhoneEvent}
    (hr : Run (step u) (fun _ _ => True) (opened phone) es t) :
    (∀ before e later v w, es = before ++ e :: later →
      Run (step u) (fun _ _ => True) (opened phone) before v → step u v e = some w →
      EditMirrors u v e w) ↔ Run (step u) (SameIfDropped u) (opened phone) es t :=
  hr.steps_iff (EditMirrors u) fun _ _ _ hs => editMirrors_step_iff hs

theorem editMirrors_typingScript : ∃ t,
    Run (step .scalars) (fun _ _ => True) (opened []) typingScript t ∧
    ∀ before e later v w, typingScript = before ++ e :: later →
      Run (step .scalars) (fun _ _ => True) (opened []) before v → step .scalars v e = some w →
      EditMirrors .scalars v e w := by
  obtain ⟨t, hall, hr⟩ := typingScript_run (SameIfDropped .scalars) (by decide)
  exact ⟨t, hall, (editMirrors_iff .scalars [] hall).mpr hr⟩

/-- A twelfth digit is kept from the field and still goes into the copy. -/
theorem dropped_digit_copied : ¬ ∀ (u : Unicode) (phone : Text) (es : List PhoneEvent)
    (range : NSRange) (string : Text) (t : PhoneScreen),
    Run (step u) (fun _ _ => True) (opened phone) (es ++ [.edit range string]) t → Mirrors u t := by
  intro h
  obtain ⟨t, hr, hdiffer⟩ := exists_run_of_exec (step .scalars) (fun _ _ => True) (opened [])
    ([.edit ⟨0, 0⟩ ['1', '3', '1', '2', '5', '5', '5', '1', '2', '3', '4']] ++ [.edit ⟨16, 0⟩ ['9']])
    (fun t => Unicode.scalars.digits t.field.myPhoneNumber ≠ Unicode.scalars.digits t.field.text)
    (by decide)
  exact hdiffer (h .scalars [] _ _ _ t hr)

/-! ### Typing at the end -/

/-- A chunk is typed or pasted at the end of the field. -/
def append (u : Unicode) (s : PhoneScreen) (chunk : Text) : Option PhoneScreen :=
  step u s (.edit ⟨utf16Count s.field.text, 0⟩ chunk)

/-- The chunks are typed or pasted at the end of the field, one after the other. -/
def appendAll (u : Unicode) : PhoneScreen → List Text → Option PhoneScreen
  | s, [] => some s
  | s, chunk :: chunks => (s.append u chunk).bind fun s' => appendAll u s' chunks

theorem append_masked (hlive : s.crashed = none) {chunk : Text}
    (h : (u.digits (s.field.text ++ chunk)).length ≤ 11) :
    ∃ t, s.append u chunk = some t ∧ t.crashed = none ∧
      t.field.text = masked u (s.field.text ++ chunk) := by
  have hN := u.replacingCharacters_end s.field.text chunk
  refine ⟨_, step_edit.mpr ⟨hlive, _, hN, rfl⟩, ?_⟩
  have hcount := u.count_le_append s.field.text chunk
  rcases edit_cases hN with ⟨hshort, -, -⟩ | ⟨hshort, -, -⟩ | ⟨-, hmany, -⟩ | ⟨-, -, _, heq⟩
  · omega
  · omega
  · omega
  · rw [heq]
    exact ⟨rfl, rfl⟩

theorem appendAll_fmt (chunks : List Text) : ∀ {s : PhoneScreen}, s.crashed = none →
    (u.digits (s.field.text ++ chunks.flatten)).length ≤ 11 →
    ∃ t, s.appendAll u chunks = some t ∧ t.crashed = none ∧
      u.digits t.field.text = u.digits (s.field.text ++ chunks.flatten) ∧
      (chunks ≠ [] → u.digits t.field.text ≠ [] → t.field.text = fmt (u.digits t.field.text)) := by
  induction chunks with
  | nil =>
      intro s hlive _
      refine ⟨s, rfl, hlive, ?_, fun hne => absurd rfl hne⟩
      rw [List.flatten_nil, List.append_nil]
  | cons chunk chunks ih =>
      intro s hlive h
      rw [List.flatten_cons, ← List.append_assoc, Unicode.digits_append] at h ⊢
      have hfirst : (u.digits (s.field.text ++ chunk)).length ≤ 11 := by
        rw [List.length_append] at h
        omega
      obtain ⟨t, ht, htlive, htext⟩ := append_masked hlive hfirst
      have hdigits : u.digits t.field.text = u.digits (s.field.text ++ chunk) := by
        rw [htext, digits_masked hfirst]
      have hrest : (u.digits (t.field.text ++ chunks.flatten)).length ≤ 11 := by
        rw [Unicode.digits_append, hdigits]
        exact h
      obtain ⟨v, hv, hvlive, hvdigits, hvfmt⟩ := ih htlive hrest
      refine ⟨v, ?_, hvlive, ?_, ?_⟩
      · rw [appendAll, ht, Option.bind_some, hv]
      · rw [hvdigits, Unicode.digits_append, hdigits]
      · intro _ hne
        cases chunks with
        | nil =>
            obtain rfl := Option.some.inj hv
            rw [hdigits] at hne ⊢
            rw [htext, masked_of_digits hne]
        | cons _ _ => exact hvfmt (by simp) hne

theorem edit_fmt {d : Text} (hd : IsPhoneNumber u d) (hne : d ≠ [])
    (hN : u.replacingCharacters s.field.text range string = some (fmt d)) :
    (s.edit u range string).field.text = fmt d := by
  have hcount : 2 < u.count (fmt d) := by
    rw [Unicode.count_plain (plain_of_permitted (permitted_fmt hd.all_digits))]
    exact two_lt_length_fmt hne
  have hlength := hd.length_le
  rcases edit_cases hN with ⟨-, htwo, -⟩ | ⟨-, -, heq⟩ | ⟨-, hmany, -⟩ | ⟨-, -, _, heq⟩
  · omega
  · rw [heq, text_shows]
  · rw [digits_fmt hd] at hmany
    omega
  · rw [heq, text_shows, masked_of_digits (by rwa [digits_fmt hd]), digits_fmt hd]

/-- **Typing and pasting give the same text**: however a text is cut into chunks that are entered at
the end, no place is out of range and the field ends with the digits in the format; these are the
digits that were entered, and masking the text again does not change it. -/
theorem appendAll_eq_fmt (u : Unicode) {s : PhoneScreen} (hs : s.Fresh) {chunks : List Text}
    (hne : chunks ≠ []) (hpos : 1 ≤ (u.digits (s.field.text ++ chunks.flatten)).length)
    (hle : (u.digits (s.field.text ++ chunks.flatten)).length ≤ 11) :
    (∃ t, s.appendAll u chunks = some t ∧ t.crashed = none ∧
      t.field.text = fmt (u.digits (s.field.text ++ chunks.flatten))) ∧
    u.digits (fmt (u.digits (s.field.text ++ chunks.flatten))) =
      u.digits (s.field.text ++ chunks.flatten) ∧
    ∀ (v w : PhoneScreen) (range : NSRange) (string : Text),
      u.replacingCharacters v.field.text range string =
        some (fmt (u.digits (s.field.text ++ chunks.flatten))) →
      step u v (.edit range string) = some w →
        w.field.text = fmt (u.digits (s.field.text ++ chunks.flatten)) := by
  have hdigits : u.digits (s.field.text ++ chunks.flatten) ≠ [] := List.ne_nil_of_length_pos hpos
  have hnumber := isPhoneNumber_digits hle
  have hlive : s.crashed = none := by
    rcases hs with rfl | rfl <;> rfl
  refine ⟨?_, digits_fmt hnumber, ?_⟩
  · obtain ⟨t, ht, htlive, htdigits, htfmt⟩ := appendAll_fmt chunks hlive hle
    refine ⟨t, ht, htlive, ?_⟩
    rw [← htdigits]
    exact htfmt hne (by rwa [htdigits])
  · intro v w range string hN hstep
    obtain ⟨-, newString, -, rfl⟩ := step_edit.mp hstep
    exact edit_fmt hnumber hdigits hN

/-- A number with a dash and a space, in two chunks after the country code. -/
theorem appendAll_eq_fmt_chunks :
    ∃ t, (opened []).textFieldDidBeginEditing.appendAll .scalars [['3', '1'], ['2', '-', '5', ' ']] =
      some t ∧ t.crashed = none ∧ t.field.text = ['+', '1', '(', '3', '1', '2', ')', ' ', '5'] :=
  (appendAll_eq_fmt .scalars (Or.inr rfl) (by simp) (by decide) (by decide)).1

end PhoneScreen

end CommServe
