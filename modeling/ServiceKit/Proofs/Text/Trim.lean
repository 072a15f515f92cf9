import ServiceKit.Text.Blank

/-!
# What trimming leaves

A trimmed text neither begins nor ends with a blank.  Every text is one trimmed text with blanks
around it, and of no other.
-/

namespace ServiceKit
namespace Text

/-- Every character is blank. -/
def IsBlankText (cs : List Char) : Prop :=
  ∀ c ∈ cs, isBlank c

/-- A text neither begins nor ends with a blank. -/
structure IsTrimmed (cs : List Char) : Prop where
  head : ∀ c, cs.head? = some c → ¬ isBlank c
  last : ∀ c, cs.getLast? = some c → ¬ isBlank c

/-- A text is another one with blanks before and behind it. -/
def Pads (cs ds : List Char) : Prop :=
  ∃ before after, IsBlankText before ∧ IsBlankText after ∧ cs = before ++ ds ++ after

variable {c : Char} {cs ds before after : List Char}

/-! ## Blanks at one end -/

theorem trimStart_append_of_blank (h : IsBlankText before) (cs : List Char) :
    trimStart (before ++ cs) = trimStart cs :=
  List.dropWhile_append_of_pos h

theorem trimEnd_append_of_blank (h : IsBlankText after) (cs : List Char) :
    trimEnd (cs ++ after) = trimEnd cs := by
  have hreverse : IsBlankText after.reverse := fun c hc => h c (List.mem_reverse.mp hc)
  rw [trimEnd, List.reverse_append, trimStart_append_of_blank hreverse, trimEnd]

theorem trimStart_append (h : ¬ IsBlankText cs) (ds : List Char) :
    trimStart (cs ++ ds) = trimStart cs ++ ds := by
  have hne : (trimStart cs).isEmpty = false :=
    List.isEmpty_eq_false_iff.mpr (mt trimStart_eq_nil_iff.mp h)
  rw [trimStart, List.dropWhile_append, ← trimStart, hne]
  rfl

theorem exists_eq_trimStart (cs : List Char) :
    ∃ before, IsBlankText before ∧ cs = before ++ trimStart cs :=
  ⟨cs.takeWhile isBlank, List.all_eq_true.mp List.all_takeWhile,
    List.takeWhile_append_dropWhile.symm⟩

theorem exists_eq_trimEnd (cs : List Char) :
    ∃ after, IsBlankText after ∧ cs = trimEnd cs ++ after := by
  obtain ⟨before, hbefore, hreverse⟩ := exists_eq_trimStart cs.reverse
  refine ⟨before.reverse, fun c hc => hbefore c (List.mem_reverse.mp hc), ?_⟩
  rw [trimEnd, ← List.reverse_append, ← hreverse, List.reverse_reverse]

theorem not_isBlank_of_head?_trimStart (h : (trimStart cs).head? = some c) : ¬ isBlank c := by
  have hnot := List.head?_dropWhile_not isBlank cs
  rw [← trimStart, h] at hnot
  rw [hnot]
  decide

theorem trimStart_of_head? (h : ∀ c, cs.head? = some c → ¬ isBlank c) : trimStart cs = cs := by
  cases cs with
  | nil => rfl
  | cons c cs => rw [trimStart_cons, if_neg (h c rfl)]

/-! ## Blanks at both ends -/

theorem pads_trim (cs : List Char) : Pads cs (trim cs) := by
  obtain ⟨before, hbefore, hstart⟩ := exists_eq_trimStart cs
  obtain ⟨after, hafter, hend⟩ := exists_eq_trimEnd (trimStart cs)
  refine ⟨before, after, hbefore, hafter, ?_⟩
  rw [List.append_assoc, trim, ← hend, ← hstart]

theorem isTrimmed_trim (cs : List Char) : IsTrimmed (trim cs) where
  head := by
    intro c hc
    obtain ⟨after, -, hend⟩ := exists_eq_trimEnd (trimStart cs)
    have hhead : (trimStart cs).head? = some c := by
      rw [hend, ← trim, List.head?_append, hc]
      rfl
    exact not_isBlank_of_head?_trimStart hhead
  last := by
    intro c hc
    rw [trim, trimEnd, List.getLast?_reverse] at hc
    exact not_isBlank_of_head?_trimStart hc

/-- Nothing is trimmed of a trimmed text. -/
theorem IsTrimmed.trim_eq (h : IsTrimmed cs) : trim cs = cs := by
  have hreverse : trimStart cs.reverse = cs.reverse := by
    apply trimStart_of_head?
    intro c hc
    rw [List.head?_reverse] at hc
    exact h.last c hc
  rw [trim, trimStart_of_head? h.head, trimEnd, hreverse, List.reverse_reverse]

/-- Blanks around a text make no difference to what trimming leaves. -/
theorem Pads.trim_eq (h : Pads cs ds) : trim cs = trim ds := by
  obtain ⟨before, after, hbefore, hafter, rfl⟩ := h
  by_cases hds : IsBlankText ds
  · have hall : IsBlankText (before ++ ds ++ after) := by
      intro c hc
      rcases List.mem_append.mp hc with hc | hc
      · exact (List.mem_append.mp hc).elim (hbefore c) (hds c)
      · exact hafter c hc
    rw [trim_eq_nil_iff.mpr hall, trim_eq_nil_iff.mpr hds]
  · rw [trim, List.append_assoc, trimStart_append_of_blank hbefore, trimStart_append hds,
      trimEnd_append_of_blank hafter, trim]

/-- What trimming leaves is the one trimmed text that has blanks around it. -/
theorem trim_eq_iff : trim cs = ds ↔ Pads cs ds ∧ IsTrimmed ds := by
  constructor
  · rintro rfl
    exact ⟨pads_trim cs, isTrimmed_trim cs⟩
  · rintro ⟨hpads, htrimmed⟩
    rw [hpads.trim_eq, htrimmed.trim_eq]

theorem Pads.not_mem {separator : Char} (h : Pads cs ds) (hblank : ¬ isBlank separator)
    (hmem : separator ∉ ds) : separator ∉ cs := by
  obtain ⟨before, after, hbefore, hafter, rfl⟩ := h
  simp only [List.mem_append, not_or]
  exact ⟨⟨fun hc => hblank (hbefore _ hc), hmem⟩, fun hc => hblank (hafter _ hc)⟩

theorem Pads.mem (h : Pads cs ds) (hc : c ∈ ds) : c ∈ cs := by
  obtain ⟨before, after, -, -, rfl⟩ := h
  exact List.mem_append_left _ (List.mem_append_right _ hc)

end Text
end ServiceKit
