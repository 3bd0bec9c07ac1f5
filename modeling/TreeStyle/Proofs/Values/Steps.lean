import Mathlib.Data.List.Forall2

/-!
# Steps that may fail

Data is read in steps, and each step gives a result or an error.  Two steps in a row give
a result if both do; otherwise the error is that of the first one to fail.  The same goes
for a step that is repeated along a list, be it to change a state or to read each item.

Main statements: `bind_eq_ok_iff`, `bind_eq_error_iff`, `foldlM_eq_error_iff` and
`mapM_eq_ok_iff`.
-/

namespace TreeStyle

set_option autoImplicit false

variable {Error Reason State Result Item Part : Type}

/-! ## One step after the other -/

theorem bind_eq_ok_iff {first : Except Error State} {next : State → Except Error Result}
    {result : Result} :
    first >>= next = .ok result ↔ ∃ state, first = .ok state ∧ next state = .ok result := by
  constructor
  · intro both
    cases first with
    | error => cases both
    | ok state => exact ⟨state, rfl, both⟩
  · rintro ⟨state, rfl, later⟩
    exact later

theorem bind_eq_error_iff {first : Except Error State} {next : State → Except Error Result}
    {error : Error} :
    first >>= next = .error error ↔
      first = .error error ∨ ∃ state, first = .ok state ∧ next state = .error error := by
  constructor
  · intro both
    cases first with
    | error =>
      cases both
      exact .inl rfl
    | ok state => exact .inr ⟨state, rfl, both⟩
  · rintro (rfl | ⟨state, rfl, later⟩)
    · rfl
    · exact later

theorem map_eq_ok_iff {first : Except Error State} {change : State → Result} {result : Result} :
    first.map change = .ok result ↔ ∃ state, first = .ok state ∧ change state = result := by
  cases first <;> simp [Except.map]

theorem map_eq_error_iff {first : Except Error State} {change : State → Result} {error : Error} :
    first.map change = .error error ↔ first = .error error := by
  cases first <;> simp [Except.map]

theorem mapError_eq_ok_iff {first : Except Reason State} {wording : Reason → Error}
    {state : State} : first.mapError wording = .ok state ↔ first = .ok state := by
  cases first <;> simp [Except.mapError]

theorem mapError_eq_error_iff {first : Except Reason State} {wording : Reason → Error}
    {error : Error} :
    first.mapError wording = .error error ↔
      ∃ reason, first = .error reason ∧ wording reason = error := by
  cases first <;> simp [Except.mapError]

/-! ## Along a list -/

/-- A fold fails where a step fails after steps that did not. -/
theorem foldlM_eq_error_iff {step : State → Item → Except Error State} {items : List Item}
    {state : State} {error : Error} :
    items.foldlM step state = .error error ↔
      ∃ before item after reached, items = before ++ item :: after ∧
        before.foldlM step state = .ok reached ∧ step reached item = .error error := by
  constructor
  · intro failed
    induction items generalizing state with
    | nil => cases failed
    | cons item items ih =>
      rcases bind_eq_error_iff.mp failed with stopped | ⟨next, taken, later⟩
      · exact ⟨[], item, items, state, rfl, rfl, stopped⟩
      · obtain ⟨before, part, after, reached, rfl, read, stopped⟩ := ih later
        exact ⟨item :: before, part, after, reached, rfl, bind_eq_ok_iff.mpr ⟨next, taken, read⟩,
          stopped⟩
  · rintro ⟨before, item, after, reached, rfl, read, stopped⟩
    rw [List.foldlM_append]
    exact bind_eq_error_iff.mpr (.inr ⟨reached, read, bind_eq_error_iff.mpr (.inl stopped)⟩)

/-- Items are read one by one into parts. -/
theorem mapM_eq_ok_iff {read : Item → Except Error Part} {items : List Item} {parts : List Part} :
    items.mapM read = .ok parts ↔
      List.Forall₂ (fun item part => read item = .ok part) items parts := by
  induction items generalizing parts with
  | nil =>
    rw [List.mapM_nil, List.forall₂_nil_left_iff]
    exact ⟨fun same => (Except.ok.inj same).symm, fun same => same ▸ rfl⟩
  | cons item items ih =>
    rw [List.mapM_cons, bind_eq_ok_iff, List.forall₂_cons_left_iff]
    refine exists_congr fun part => ?_
    simp only [bind_eq_ok_iff, ih, ← exists_and_left]
    refine exists_congr fun others => and_congr_right fun _ => and_congr_right fun _ => ?_
    exact ⟨fun same => (Except.ok.inj same).symm, fun same => same ▸ rfl⟩

/-- Where items are not read, one of them is not. -/
theorem exists_of_mapM_eq_error {read : Item → Except Error Part} {items : List Item}
    {error : Error} (failed : items.mapM read = .error error) :
    ∃ item ∈ items, read item = .error error := by
  induction items with
  | nil => cases failed
  | cons item items ih =>
    rw [List.mapM_cons] at failed
    rcases bind_eq_error_iff.mp failed with first | ⟨part, _, rest⟩
    · exact ⟨item, List.mem_cons_self, first⟩
    · rcases bind_eq_error_iff.mp rest with later | ⟨parts, _, made⟩
      · obtain ⟨other, member, refused⟩ := ih later
        exact ⟨other, List.mem_cons_of_mem _ member, refused⟩
      · cases made

end TreeStyle
