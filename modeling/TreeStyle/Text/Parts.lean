/-!
# Parts between separators

A text is cut at every occurrence of a separator.  The parts may be empty, and
there is one more of them than there are separators.

Main statements: `intercalate_partsAt` (the parts joined by the separator are the
text), `partsAt_intercalate` (parts without the separator are found again),
`partsAt_intercalate_of_perm` and `length_partsAt`.
-/

namespace TreeStyle.Text

set_option autoImplicit false

/-- The parts of a text between the occurrences of a separator. -/
def partsAt (separator : Char) : List Char → List (List Char)
  | [] => [[]]
  | character :: rest =>
    if character = separator then [] :: partsAt separator rest
    else
      match partsAt separator rest with
      | [] => [[character]]
      | part :: parts => (character :: part) :: parts

/-- There is one more part than there are separators. -/
theorem length_partsAt (separator : Char) (text : List Char) :
    (partsAt separator text).length = text.count separator + 1 := by
  induction text with
  | nil => rfl
  | cons character rest ih =>
    by_cases here : character = separator
    · simp [partsAt, here, ih]
    · cases cut : partsAt separator rest with
      | nil => simp [cut] at ih
      | cons part parts =>
        rw [cut] at ih
        simpa [partsAt, here, cut, List.count_cons_of_ne here] using ih

theorem partsAt_ne_nil (separator : Char) (text : List Char) : partsAt separator text ≠ [] := by
  intro none
  have parted := length_partsAt separator text
  rw [none] at parted
  cases parted

/-- No part has the separator in it. -/
theorem separator_not_mem_partsAt {separator : Char} {text : List Char} :
    ∀ part ∈ partsAt separator text, separator ∉ part := by
  induction text with
  | nil => simp [partsAt]
  | cons character rest ih =>
    rw [partsAt]
    split
    · rw [List.forall_mem_cons]
      exact ⟨List.not_mem_nil, ih⟩
    · next other =>
      split
      · simpa using Ne.symm other
      · next part parts cut =>
        rw [cut, List.forall_mem_cons] at ih
        rw [List.forall_mem_cons]
        refine ⟨?_, ih.2⟩
        rw [List.mem_cons, not_or]
        exact ⟨Ne.symm other, ih.1⟩

/-- The parts joined by the separator are the text. -/
theorem intercalate_partsAt (separator : Char) (text : List Char) :
    List.intercalate [separator] (partsAt separator text) = text := by
  induction text with
  | nil => rfl
  | cons character rest ih =>
    cases cut : partsAt separator rest with
    | nil => exact absurd cut (partsAt_ne_nil separator rest)
    | cons part parts =>
      rw [cut] at ih
      by_cases here : character = separator
      · subst here
        rw [partsAt, if_pos rfl, cut, List.intercalate_cons_cons, ih]
        rfl
      · rw [partsAt, if_neg here, cut]
        cases parts with
        | nil => simpa using ih
        | cons next more =>
          rw [List.intercalate_cons_cons] at ih
          rw [List.intercalate_cons_cons, ← ih]
          rfl

/-- The first separator ends the first part. -/
theorem partsAt_append_cons {separator : Char} {part : List Char} (free : separator ∉ part)
    (rest : List Char) :
    partsAt separator (part ++ separator :: rest) = part :: partsAt separator rest := by
  induction part with
  | nil => simp [partsAt]
  | cons character part ih =>
    rw [List.mem_cons, not_or] at free
    rw [List.cons_append, partsAt, if_neg (Ne.symm free.1), ih free.2]

/-- A text without the separator is one part. -/
theorem partsAt_of_not_mem {separator : Char} {text : List Char} (free : separator ∉ text) :
    partsAt separator text = [text] := by
  induction text with
  | nil => rfl
  | cons character text ih =>
    rw [List.mem_cons, not_or] at free
    rw [partsAt, if_neg (Ne.symm free.1), ih free.2]

/-- **Parts that are joined by a separator are found again**, if it is in none of them. -/
theorem partsAt_intercalate {separator : Char} {parts : List (List Char)} (nonempty : parts ≠ [])
    (free : ∀ part ∈ parts, separator ∉ part) :
    partsAt separator (List.intercalate [separator] parts) = parts := by
  induction parts with
  | nil => exact absurd rfl nonempty
  | cons part parts ih =>
    have first := free part List.mem_cons_self
    cases parts with
    | nil =>
      rw [List.intercalate_singleton]
      exact partsAt_of_not_mem first
    | cons next parts =>
      have later := ih (List.cons_ne_nil _ _) fun other member =>
        free other (List.mem_cons_of_mem _ member)
      rw [List.intercalate_cons_cons, List.append_assoc, List.singleton_append,
        partsAt_append_cons first, later]

/-- Parts in another order are the parts of the text that joins them. -/
theorem partsAt_intercalate_of_perm {separator : Char} {text : List Char}
    {shuffled : List (List Char)} (reordered : shuffled.Perm (partsAt separator text)) :
    partsAt separator (List.intercalate [separator] shuffled) = shuffled := by
  apply partsAt_intercalate
  · rintro rfl
    exact partsAt_ne_nil separator text reordered.nil_eq.symm
  · intro part listed
    exact separator_not_mem_partsAt part (reordered.mem_iff.mp listed)

end TreeStyle.Text
