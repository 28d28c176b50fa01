import Mathlib.Data.List.Infix
import Mathlib.Data.List.Range
import Mathlib.Order.Bounds.Basic

/-!
# Searching a string for a pattern

The first position at which a pattern occurs. Bytes that arrive later do not
move a position that has been found, and cannot be anticipated: a string that
ends before the occurrence is complete does not have it.
-/

namespace CommunicationProtocols.Library.Search

variable {α : Type*} {pattern string shorter : List α} {i : Nat}

/-- An occurrence lies inside the string. -/
theorem add_length_le_of_prefix_drop (bound : i ≤ string.length)
    (here : pattern <+: string.drop i) : i + pattern.length ≤ string.length := by
  have length := here.length_le
  rw [List.length_drop] at length
  omega

/-- An occurrence in a prefix is one in the whole string. -/
theorem prefix_drop_widen (cut : shorter <+: string) (here : pattern <+: shorter.drop i) :
    pattern <+: string.drop i :=
  here.trans (cut.drop i)

/-- An occurrence in the whole string that is complete in a prefix. -/
theorem prefix_drop_shorter (cut : shorter <+: string) (here : pattern <+: string.drop i)
    (fits : i + pattern.length ≤ shorter.length) : pattern <+: shorter.drop i :=
  List.prefix_of_prefix_length_le here (cut.drop i) (by rw [List.length_drop]; omega)

/-- Past the end there is only what occurs at the end. -/
theorem exists_le_length_of_prefix_drop (here : pattern <+: string.drop i) :
    ∃ j, j ≤ string.length ∧ pattern <+: string.drop j := by
  rcases Nat.le_total i string.length with inside | past
  · exact ⟨i, inside, here⟩
  · refine ⟨string.length, le_rfl, ?_⟩
    rwa [List.drop_length, ← List.drop_eq_nil_of_le past]

/-! ## Strings around a separator -/

/-- A pattern occurs exactly if it starts at some index. -/
theorem infix_iff_exists_prefix_drop :
    pattern <:+: string ↔ ∃ i, pattern <+: string.drop i := by
  rw [List.infix_iff_prefix_suffix]
  constructor
  · rintro ⟨rest, here, suffix⟩
    exact ⟨_, by rwa [← List.suffix_iff_eq_drop.mp suffix]⟩
  · rintro ⟨i, here⟩
    exact ⟨_, here, List.drop_suffix i string⟩

variable {front separator back : List α}

/-- A pattern that shares nothing with the separator occurs in front of it, or
behind it. -/
theorem prefix_drop_of_separated (separates : 0 < separator.length)
    (apart : ∀ x ∈ pattern, x ∉ separator)
    (here : pattern <+: (front ++ separator ++ back).drop i) :
    pattern <+: front.drop i ∨ front.length + separator.length ≤ i := by
  rcases List.eq_nil_or_concat' pattern with rfl | nonempty
  · exact .inl List.nil_prefix
  refine or_iff_not_imp_right.mpr fun early => ?_
  rw [List.append_assoc] at here
  refine prefix_drop_shorter (List.prefix_append _ _) here (Nat.le_of_not_lt fun late => ?_)
  -- The element of the pattern that meets the separator first.
  have positive : 0 < pattern.length := by
    obtain ⟨init, last, rfl⟩ := nonempty
    simp
  have meets : max i front.length - i < pattern.length := by omega
  have same := here.getElem meets
  have inside : max i front.length - front.length < separator.length := by omega
  refine apart _ (List.getElem_mem meets) ?_
  rw [same, List.getElem_drop, List.getElem_append_right (by omega),
    List.getElem_append_left (by omega)]
  exact List.getElem_mem _

/-- A pattern without the bytes of a separator occurs on one of its sides. -/
theorem infix_separated_iff (separates : 0 < separator.length)
    (apart : ∀ x ∈ pattern, x ∉ separator) :
    pattern <:+: front ++ separator ++ back ↔ pattern <:+: front ∨ pattern <:+: back := by
  constructor
  · intro occurs
    obtain ⟨i, here⟩ := infix_iff_exists_prefix_drop.mp occurs
    rcases prefix_drop_of_separated separates apart here with inFront | behind
    · exact .inl (infix_iff_exists_prefix_drop.mpr ⟨i, inFront⟩)
    · rw [List.drop_append, List.drop_eq_nil_of_le (by rwa [List.length_append]),
        List.nil_append] at here
      exact .inr (infix_iff_exists_prefix_drop.mpr ⟨_, here⟩)
  · rintro (inFront | inBack)
    · exact (inFront.trans (List.prefix_append _ _).isInfix).trans (List.prefix_append _ _).isInfix
    · exact inBack.trans (List.suffix_append _ _).isInfix

variable [DecidableEq α]

/-- The first position of a pattern. -/
def first (pattern string : List α) : Option Nat :=
  (List.range (string.length + 1)).find? fun i => pattern <+: string.drop i

/-- The index that is found is the least one at which the pattern starts. -/
theorem first_eq_some_iff : first pattern string = some i ↔
    i ≤ string.length ∧ pattern <+: string.drop i ∧ ∀ j, j < i → ¬ pattern <+: string.drop j := by
  simp only [first, List.find?_range_eq_some, decide_eq_true_eq, Bool.not_eq_true',
    decide_eq_false_iff_not, List.mem_range, Nat.lt_succ_iff]
  exact ⟨fun ⟨here, bound, before⟩ => ⟨bound, here, before⟩,
    fun ⟨bound, here, before⟩ => ⟨here, bound, before⟩⟩

/-- None is found exactly if the pattern starts at no index of the string. -/
theorem first_eq_none_iff :
    first pattern string = none ↔ ∀ j, j ≤ string.length → ¬ pattern <+: string.drop j := by
  simp only [first, List.find?_range_eq_none, Bool.not_eq_true', decide_eq_false_iff_not,
    Nat.lt_succ_iff]

/-- The search finds the least of all the positions at which the pattern occurs. -/
theorem first_eq_some_iff_isLeast :
    first pattern string = some i ↔ IsLeast {j | pattern <+: string.drop j} i := by
  refine first_eq_some_iff.trans ⟨fun ⟨_, here, before⟩ => ⟨here, fun j again => ?_⟩,
    fun ⟨here, least⟩ => ?_⟩
  · exact Nat.le_of_not_lt fun less => before j less again
  · obtain ⟨j, inside, again⟩ := exists_le_length_of_prefix_drop here
    refine ⟨(least again).trans inside, here, fun k less occurs => ?_⟩
    exact Nat.not_lt_of_le (least occurs) less

/-- None is found exactly if the pattern starts nowhere. -/
theorem first_eq_none_iff_nowhere :
    first pattern string = none ↔ ∀ j, ¬ pattern <+: string.drop j := by
  refine first_eq_none_iff.trans ⟨fun absent j here => ?_, fun absent j _ => absent j⟩
  obtain ⟨k, inside, again⟩ := exists_le_length_of_prefix_drop here
  exact absent k inside again

/-- None is found exactly if the pattern does not occur. -/
theorem first_eq_none_iff_not_infix : first pattern string = none ↔ ¬ pattern <:+: string := by
  rw [first_eq_none_iff_nowhere, infix_iff_exists_prefix_drop, not_exists]

/-- The first occurrence is right behind the separator exactly if the pattern
starts there and does not occur in front of it. -/
theorem first_separated_eq_iff (nonempty : pattern ≠ []) (separates : 0 < separator.length)
    (apart : ∀ x ∈ pattern, x ∉ separator) :
    first pattern (front ++ separator ++ back) = some (front.length + separator.length) ↔
      pattern <+: back ∧ ¬ pattern <:+: front := by
  have behind : (front ++ separator ++ back).drop (front.length + separator.length) = back := by
    rw [← List.length_append, List.drop_left]
  rw [first_eq_some_iff, behind, infix_iff_exists_prefix_drop, not_exists]
  constructor
  · rintro ⟨_, here, before⟩
    refine ⟨here, fun i inFront => ?_⟩
    have inside : i < front.length := by
      by_contra past
      rw [List.drop_eq_nil_of_le (by omega)] at inFront
      exact nonempty (List.prefix_nil.mp inFront)
    refine before i (by omega) ?_
    rw [List.append_assoc]
    exact prefix_drop_widen (List.prefix_append _ _) inFront
  · rintro ⟨here, absent⟩
    refine ⟨by simp, here, fun i less again => ?_⟩
    exact (prefix_drop_of_separated separates apart again).elim (absent i) (by omega)

/-- The first position is found as soon as the occurrence is complete. -/
theorem first_of_complete (cut : shorter <+: string) (found : first pattern string = some i)
    (fits : i + pattern.length ≤ shorter.length) : first pattern shorter = some i := by
  obtain ⟨_, here, before⟩ := first_eq_some_iff.mp found
  refine first_eq_some_iff.mpr ⟨by omega, prefix_drop_shorter cut here fits, fun j less again => ?_⟩
  exact before j less (prefix_drop_widen cut again)

/-- Nothing is found before the first occurrence is complete. -/
theorem first_of_cut (cut : shorter <+: string) (found : first pattern string = some i)
    (short : shorter.length < i + pattern.length) : first pattern shorter = none := by
  obtain ⟨_, _, before⟩ := first_eq_some_iff.mp found
  refine first_eq_none_iff.mpr fun j bound again => ?_
  have complete := add_length_le_of_prefix_drop bound again
  exact before j (by omega) (prefix_drop_widen cut again)

end CommunicationProtocols.Library.Search
