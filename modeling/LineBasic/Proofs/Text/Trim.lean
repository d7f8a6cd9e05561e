/-
  LineBasic.Proofs.Text.Trim

  Trimming: the trimmed text is a piece of the text that neither starts nor ends with a blank, so
  trimming it again changes nothing.
-/
import LineBasic.Text.Blank
import Mathlib.Data.List.DropRight

namespace LineBasic.Text

theorem trimEnd_eq_rdropWhile (s : List Char) : trimEnd s = s.rdropWhile isBlank := rfl

/-- The last character of a trimmed text is no blank. -/
theorem getLast?_trim {s : List Char} {c : Char} (h : (trim s).getLast? = some c) :
    isBlank c = false := by
  have hne : trim s ≠ [] := by
    intro hnil
    rw [hnil] at h
    simp at h
  have hlast := List.rdropWhile_last_not isBlank (s.dropWhile isBlank) hne
  rw [List.getLast?_eq_some_getLast hne] at h
  obtain rfl := Option.some.inj h
  exact Bool.eq_false_iff.mpr hlast

/-- A trimmed text starts with the first character that is no blank. -/
theorem head?_trim_eq_find? (s : List Char) :
    (trim s).head? = s.find? (fun c => !isBlank c) := by
  simp only [List.find?_eq_head?_dropWhile_not, Bool.not_not]
  obtain ⟨behind, hbehind⟩ : trim s <+: s.dropWhile isBlank := List.rdropWhile_prefix _ _
  have hhead := List.head?_dropWhile_not isBlank s
  -- Blanks are cut off the end only, so the first character is that of the cut front.
  cases hfront : s.dropWhile isBlank with
  | nil =>
      rw [hfront, List.append_eq_nil_iff] at hbehind
      rw [hbehind.1]
  | cons c rest =>
      have hkept : trim s ≠ [] := by
        rw [hfront] at hhead
        rw [trim, trimEnd_eq_rdropWhile, hfront, Ne, List.rdropWhile_eq_nil_iff]
        intro hall
        simp [hall c List.mem_cons_self] at hhead
      rw [← hfront, ← hbehind, List.head?_append_of_ne_nil _ hkept]

/-- The first character of a trimmed text is no blank. -/
theorem head?_trim {s : List Char} {c : Char} (h : (trim s).head? = some c) :
    isBlank c = false := by
  rw [head?_trim_eq_find?] at h
  simpa using List.find?_some h

/-- Nothing is left of a text exactly if all of it is blank. -/
theorem trim_eq_nil_iff {s : List Char} : trim s = [] ↔ ∀ c ∈ s, isBlank c = true := by
  rw [← List.head?_eq_none_iff, head?_trim_eq_find?, List.find?_eq_none]
  simp

/-- Where no blank stands first, blanks are cut off the end only. -/
theorem trim_eq_trimEnd {s : List Char} (hfirst : ∀ c ∈ s.head?, isBlank c = false) :
    trim s = trimEnd s := by
  have hdrop : s.dropWhile isBlank = s := by
    cases s with
    | nil => rfl
    | cons c rest => simp [hfirst c rfl]
  rw [trim, hdrop]

/-- A text is its own trimmed text as soon as no blank stands at its two ends. -/
theorem trim_eq_self {s : List Char} (hfirst : ∀ c ∈ s.head?, isBlank c = false)
    (hlast : ∀ c ∈ s.getLast?, isBlank c = false) : trim s = s := by
  rw [trim_eq_trimEnd hfirst, trimEnd_eq_rdropWhile, List.rdropWhile_eq_self_iff]
  intro hne
  simpa using hlast _ (List.getLast?_eq_some_getLast hne)

@[simp] theorem trim_trim (s : List Char) : trim (trim s) = trim s :=
  trim_eq_self (fun _ => head?_trim) (fun _ => getLast?_trim)

/-- What is left stands in the text as one piece. -/
theorem trim_isInfix (s : List Char) : trim s <:+: s :=
  (List.rdropWhile_prefix _ _).isInfix.trans (List.dropWhile_suffix _).isInfix

/-! ## Texts that end in no blank -/

/-- The text has a last character, and it is no blank. -/
def EndsSolid (text : List Char) : Prop :=
  ∃ c, text.getLast? = some c ∧ isBlank c = false

namespace EndsSolid

variable {front text : List Char}

theorem append (h : EndsSolid text) : EndsSolid (front ++ text) := by
  obtain ⟨c, hc, hsolid⟩ := h
  exact ⟨c, by rw [List.getLast?_append, hc, Option.some_or], hsolid⟩

/-- A text of characters that are no blanks. -/
theorem of_forall (hne : text ≠ []) (h : ∀ c ∈ text, isBlank c = false) : EndsSolid text :=
  ⟨_, List.getLast?_eq_some_getLast hne, h _ (List.getLast_mem hne)⟩

/-- Nothing is cut off a text that starts and ends with characters that are no blanks. -/
theorem trim_eq_self (h : EndsSolid text) (hfirst : ∀ c ∈ text.head?, isBlank c = false) :
    trim text = text := by
  obtain ⟨last, hlast, hsolid⟩ := h
  refine Text.trim_eq_self hfirst fun c hc => ?_
  obtain rfl := Option.some.inj (hlast.symm.trans hc)
  exact hsolid

/-- Blanks are cut off what stands behind the text only. -/
theorem trimEnd_append (h : EndsSolid front) (text : List Char) :
    trimEnd (front ++ text) = front ++ trimEnd text := by
  simp only [trimEnd_eq_rdropWhile]
  induction text using List.reverseRecOn with
  | nil =>
      obtain ⟨c, hc, hsolid⟩ := h
      rw [List.append_nil, List.rdropWhile_nil, List.append_nil, List.rdropWhile_eq_self_iff]
      intro hne
      rw [List.getLast?_eq_some_getLast hne] at hc
      rw [Option.some.inj hc, hsolid]
      exact Bool.false_ne_true
  | append_singleton text c ih =>
      rw [← List.append_assoc, List.rdropWhile_concat, List.rdropWhile_concat]
      split
      · exact ih
      · exact List.append_assoc ..

end EndsSolid

end LineBasic.Text
