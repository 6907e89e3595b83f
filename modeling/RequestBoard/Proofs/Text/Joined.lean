/-!
# Texts joined by a separator

A text with parts after it, each behind a separator, can be taken apart again from its end, whatever the
text in front may be: the parts are the last stretches between separators.

* `joined`, `forall_mem_joined` — a text with parts behind separators, and its characters.
* `splitOn_joined` — such a text, split at the separators.
* `joined_inj` — **the parts can be told apart**, and so can the text in front of them.
* `intercalate_cons` — parts with separators between them are the first one with the others behind it.
-/

namespace RequestBoard

/-- A text with parts after it, each behind a separator. -/
def joined (separator : Char) (lead : List Char) (parts : List (List Char)) : List Char :=
  lead ++ parts.flatMap (separator :: ·)

theorem joined_cons (separator : Char) (lead part : List Char) (parts : List (List Char)) :
    joined separator lead (part :: parts) = lead ++ separator :: joined separator part parts := by
  simp [joined]

/-- What holds of a separator holds of all of a text if it holds of the text in front and of the parts. -/
theorem forall_mem_joined {separator : Char} {p : Char → Prop} (h : p separator) {lead : List Char}
    {parts : List (List Char)} :
    (∀ c ∈ joined separator lead parts, p c) ↔ ∀ part ∈ lead :: parts, ∀ c ∈ part, p c := by
  simp only [joined, List.forall_mem_append, List.forall_mem_flatMap, List.forall_mem_cons, h, true_and]

/-- Parts without separators in them are the last stretches between separators. -/
theorem splitOn_joined {separator : Char} (lead : List Char) {parts : List (List Char)}
    (h : ∀ part ∈ parts, separator ∉ part) :
    (joined separator lead parts).splitOn separator = lead.splitOn separator ++ parts := by
  induction parts generalizing lead with
  | nil => rw [joined, List.flatMap_nil, List.append_nil, List.append_nil]
  | cons part rest ih =>
    obtain ⟨hpart, hrest⟩ := List.forall_mem_cons.1 h
    have hnext : joined separator lead (part :: rest) =
        joined separator (lead ++ separator :: part) rest := by
      simp [joined]
    rw [hnext, ih _ hrest, List.splitOn_append_cons_self, List.splitOn_eq_singleton hpart,
      List.append_assoc, List.singleton_append]

/-- **The parts can be told apart**, and so can the texts in front of them, if there are no separators in
the parts and as many parts on both sides. -/
theorem joined_inj {separator : Char} {lead lead' : List Char} {parts parts' : List (List Char)}
    (h : ∀ part ∈ parts, separator ∉ part) (h' : ∀ part ∈ parts', separator ∉ part)
    (hlength : parts.length = parts'.length) :
    joined separator lead parts = joined separator lead' parts' ↔ lead = lead' ∧ parts = parts' := by
  constructor
  · intro heq
    have hsplit := congrArg (List.splitOn separator) heq
    rw [splitOn_joined lead h, splitOn_joined lead' h'] at hsplit
    obtain ⟨hlead, hparts⟩ := List.append_inj' hsplit hlength
    have hjoin := congrArg (List.intercalate [separator]) hlead
    rw [List.intercalate_splitOn, List.intercalate_splitOn] at hjoin
    exact ⟨hjoin, hparts⟩
  · rintro ⟨rfl, rfl⟩
    rfl

/-- Parts with separators between them are the first part with the others behind it. -/
theorem intercalate_cons (separator : Char) (first : List Char) (rest : List (List Char)) :
    [separator].intercalate (first :: rest) = joined separator first rest := by
  induction rest generalizing first with
  | nil => rw [List.intercalate_singleton, joined, List.flatMap_nil, List.append_nil]
  | cons second rest ih =>
    rw [List.intercalate_cons_cons, ih]
    simp [joined]

end RequestBoard
