import RequestBoard.Proofs.Text.Joined
import RequestBoard.Text.Split

/-!
# The parts of a text and its characters

Cutting a text at its separators takes away the separators and nothing else.

* `parts_of_separates`, `parts_of_not` — one character more.
* `not_separates_of_mem_parts`, `separates_or_mem_parts` — what is in the parts, and what is not.
* `parts_append`, `parts_joined` — parts that are joined come back.
* `parts_eq_splitOn` — cutting at one character is what the standard library does.
-/

namespace RequestBoard

variable {separates : Char → Bool}

@[simp] theorem parts_nil : parts separates [] = [[]] := rfl

theorem parts_of_separates {c : Char} (h : separates c = true) (text : List Char) :
    parts separates (c :: text) = [] :: parts separates text := by
  simp [parts, parted, h]

theorem parts_of_not {c : Char} (h : separates c = false) (text : List Char) :
    parts separates (c :: text) = (c :: (parted separates text).1) :: (parted separates text).2 := by
  simp [parts, parted, h]

/-- There is no separator in a part. -/
theorem not_separates_of_mem_parts {text : List Char} :
    ∀ part ∈ parts separates text, ∀ c ∈ part, separates c = false := by
  induction text with
  | nil => simp
  | cons c text ih =>
    cases h : separates c with
    | true =>
      rw [parts_of_separates h, List.forall_mem_cons]
      exact ⟨nofun, ih⟩
    | false =>
      rw [parts, List.forall_mem_cons] at ih
      rw [parts_of_not h, List.forall_mem_cons, List.forall_mem_cons]
      exact ⟨⟨h, ih.1⟩, ih.2⟩

/-- Every character that is no separator is in a part. -/
theorem separates_or_mem_parts (separates : Char → Bool) {text : List Char} :
    ∀ c ∈ text, separates c = true ∨ ∃ part ∈ parts separates text, c ∈ part := by
  induction text with
  | nil => simp
  | cons d text ih =>
    intro c hc
    cases h : separates d with
    | true =>
      rw [parts_of_separates h]
      rcases List.mem_cons.1 hc with rfl | hc
      · exact Or.inl h
      · exact (ih c hc).imp id fun ⟨part, hpart, hmem⟩ => ⟨part, List.mem_cons_of_mem _ hpart, hmem⟩
    | false =>
      rw [parts_of_not h]
      rcases List.mem_cons.1 hc with rfl | hc
      · exact Or.inr ⟨_, List.mem_cons_self, List.mem_cons_self⟩
      · refine (ih c hc).imp id fun ⟨part, hpart, hmem⟩ => ?_
        rcases List.mem_cons.1 hpart with rfl | hpart
        · exact ⟨_, List.mem_cons_self, List.mem_cons_of_mem _ hmem⟩
        · exact ⟨part, List.mem_cons_of_mem _ hpart, hmem⟩

/-- Characters that are no separators belong to the part that follows them. -/
theorem parts_append {lead : List Char} (h : ∀ c ∈ lead, separates c = false) (text : List Char) :
    parts separates (lead ++ text) = (lead ++ (parted separates text).1) :: (parted separates text).2 := by
  induction lead with
  | nil => rfl
  | cons c lead ih =>
    obtain ⟨hc, hlead⟩ := List.forall_mem_cons.1 h
    have hparts := ih hlead
    rw [parts, List.cons_eq_cons] at hparts
    rw [List.cons_append, parts_of_not hc, hparts.1, hparts.2, List.cons_append]

/-- Texts without separators in them are the parts of what joins them. -/
theorem parts_joined {separator : Char} (hseparator : separates separator = true) {first : List Char}
    {rest : List (List Char)} (h : ∀ part ∈ first :: rest, ∀ c ∈ part, separates c = false) :
    parts separates (joined separator first rest) = first :: rest := by
  induction rest generalizing first with
  | nil =>
    rw [joined, List.flatMap_nil, parts_append (List.forall_mem_cons.1 h).1, parted, List.append_nil]
  | cons second rest ih =>
    obtain ⟨hfirst, hrest⟩ := List.forall_mem_cons.1 h
    have hparts := parts_of_separates hseparator (joined separator second rest)
    rw [parts, ih hrest, List.cons_eq_cons] at hparts
    rw [joined_cons, parts_append hfirst, hparts.1, hparts.2, List.append_nil]

theorem parts_eq_splitOn (separator : Char) (text : List Char) :
    parts (· == separator) text = text.splitOn separator := by
  induction text with
  | nil => rfl
  | cons c text ih =>
    rw [List.splitOn_cons_eq_if_modifyHead, ← ih]
    by_cases hc : c = separator
    · simp [parts, parted, hc]
    · simp [parts, parted, hc]

end RequestBoard
