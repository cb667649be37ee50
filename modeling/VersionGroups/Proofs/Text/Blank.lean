import Mathlib.Data.List.DropRight
import Mathlib.Data.List.TakeWhile
import VersionGroups.Text.Blank

/-!
# Blanks at the ends of a text

Trimming a text takes the blanks off both its ends. What is left has no blank at either end, and it
is the only part of the text of which that is true while all around it are blanks.
-/
namespace VersionGroups

/-- Characters without a blank at either end. -/
structure IsTrimmed (core : List Char) : Prop where
  head : ∀ c ∈ core.head?, isBlank c = false
  last : ∀ c ∈ core.getLast?, isBlank c = false

/-- Characters without a blank at either end, and blanks around them. -/
def IsPadded (core cs : List Char) : Prop :=
  IsTrimmed core ∧ ∃ front back, cs = front ++ core ++ back ∧
    (∀ c ∈ front, isBlank c = true) ∧ ∀ c ∈ back, isBlank c = true

section
variable {core cs : List Char}

/-- Nothing is left after trimming exactly when every character is blank. -/
theorem trimBlanks_eq_nil_iff (cs : List Char) :
    trimBlanks cs = [] ↔ ∀ c ∈ cs, isBlank c = true := by
  have parts : cs.takeWhile isBlank ++ cs.dropWhile isBlank = cs :=
    List.takeWhile_append_dropWhile
  simp only [trimBlanks, List.reverse_eq_nil_iff, List.dropWhile_eq_nil_iff, List.mem_reverse]
  constructor
  · intro h c hc
    rw [← parts] at hc
    rcases List.mem_append.mp hc with hc | hc
    · exact List.all_eq_true.mp List.all_takeWhile c hc
    · exact h c hc
  · intro h c hc
    exact h c (parts ▸ List.mem_append_right _ hc)

/-- What begins with a character that is not blank begins with it after trimming. -/
theorem trimBlanks_cons {c : Char} (h : isBlank c = false) (cs : List Char) :
    ∃ rest, trimBlanks (c :: cs) = c :: rest := by
  have hfront : trimBlanks (c :: cs) <+: c :: cs := by
    rw [trimBlanks, List.dropWhile_cons_of_neg (by simp [h])]
    exact List.rdropWhile_prefix isBlank _
  cases htrim : trimBlanks (c :: cs) with
  | nil =>
      have hblank := (trimBlanks_eq_nil_iff _).mp htrim c List.mem_cons_self
      cases hblank.symm.trans h
  | cons first rest =>
      rw [htrim] at hfront
      exact ⟨rest, by rw [(List.cons_prefix_cons.mp hfront).1]⟩

theorem IsTrimmed.isPadded (h : IsTrimmed core) : IsPadded core core :=
  ⟨h, [], [], by simp, by simp, by simp⟩

theorem isTrimmed_trimBlanks (cs : List Char) : IsTrimmed (trimBlanks cs) := by
  have hlist : trimBlanks cs = (cs.dropWhile isBlank).rdropWhile isBlank := rfl
  constructor
  · intro c hc
    -- What is dropped at the end does not change the first character.
    have hfront : trimBlanks cs <+: cs.dropWhile isBlank := hlist ▸ List.rdropWhile_prefix isBlank _
    obtain ⟨rest, hrest⟩ := List.head?_eq_some_iff.mp hc
    obtain ⟨back, hback⟩ := hfront
    have hhead := List.head?_dropWhile_not isBlank cs
    rw [← hback, hrest] at hhead
    exact hhead
  · intro c hc
    obtain ⟨hne, rfl⟩ := List.mem_getLast?_eq_getLast hc
    exact Bool.eq_false_iff.mpr (List.rdropWhile_last_not isBlank _ (hlist ▸ hne))

theorem isPadded_trimBlanks (cs : List Char) : IsPadded (trimBlanks cs) cs := by
  refine ⟨isTrimmed_trimBlanks cs, cs.takeWhile isBlank,
    (cs.dropWhile isBlank).rtakeWhile isBlank, ?_, ?_, ?_⟩
  · have hback : trimBlanks cs ++ (cs.dropWhile isBlank).rtakeWhile isBlank =
        cs.dropWhile isBlank := List.rdropWhile_append_rtakeWhile
    rw [List.append_assoc, hback, List.takeWhile_append_dropWhile]
  · exact List.all_eq_true.mp List.all_takeWhile
  · exact fun c hc => List.mem_rtakeWhile_imp hc

theorem dropWhile_append_eq {front rest : List Char} (hfront : ∀ c ∈ front, isBlank c = true)
    (hhead : ∀ c ∈ rest.head?, isBlank c = false) : (front ++ rest).dropWhile isBlank = rest := by
  rw [List.dropWhile_append_of_pos hfront]
  cases rest with
  | nil => rfl
  | cons c rest => rw [List.dropWhile_cons_of_neg (by simp [hhead c rfl])]

/-- Trimming leaves what the blanks at the ends surround. -/
theorem IsPadded.trimBlanks_eq (h : IsPadded core cs) : trimBlanks cs = core := by
  obtain ⟨⟨hhead, hlast⟩, front, back, rfl, hfront, hback⟩ := h
  by_cases hcore : core = []
  · subst hcore
    rw [trimBlanks_eq_nil_iff]
    intro c hc
    simp only [List.append_nil, List.mem_append] at hc
    exact hc.elim (hfront c) (hback c)
  · have hhead' : ∀ c ∈ (core ++ back).head?, isBlank c = false := by
      rw [List.head?_append_of_ne_nil _ hcore]
      exact hhead
    have hlast' : ∀ c ∈ core.reverse.head?, isBlank c = false := by
      rw [List.head?_reverse]
      exact hlast
    have hback' : ∀ c ∈ back.reverse, isBlank c = true := fun c hc => hback c (by simpa using hc)
    rw [trimBlanks, List.append_assoc, dropWhile_append_eq hfront hhead', List.reverse_append,
      dropWhile_append_eq hback' hlast', List.reverse_reverse]

end

theorem isBlankText_eq_false_iff {text : String} :
    isBlankText text = false ↔ trimmed text ≠ "" := by
  have hempty : trimmed text = "" ↔ isBlankText text = true := by
    rw [trimmed, String.ofList_eq_empty_iff, trimBlanks_eq_nil_iff, isBlankText, List.all_eq_true]
  rw [Ne, hempty, Bool.not_eq_true]

end VersionGroups
