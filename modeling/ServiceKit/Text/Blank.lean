/-!
# Blanks at the ends of a text

The characters of Unicode's `White_Space` property, and trimming a text of them.
-/

namespace ServiceKit
namespace Text

/-- A character of Unicode's `White_Space` property. -/
def isBlank (c : Char) : Bool :=
  let n := c.toNat
  (9 ≤ n && n ≤ 13) || n == 0x20 || n == 0x85 || n == 0xa0 || n == 0x1680 ||
    (0x2000 ≤ n && n ≤ 0x200a) || n == 0x2028 || n == 0x2029 || n == 0x202f ||
    n == 0x205f || n == 0x3000

/-- The text without the blanks at its start. -/
def trimStart (cs : List Char) : List Char :=
  cs.dropWhile isBlank

/-- The text without the blanks at its end. -/
def trimEnd (cs : List Char) : List Char :=
  (trimStart cs.reverse).reverse

/-- The text without the blanks at either end. -/
def trim (cs : List Char) : List Char :=
  trimEnd (trimStart cs)

theorem trimStart_cons (c : Char) (cs : List Char) :
    trimStart (c :: cs) = if isBlank c then trimStart cs else c :: cs :=
  List.dropWhile_cons

/-- Nothing is left at the start exactly where the text is blank. -/
theorem trimStart_eq_nil_iff {cs : List Char} : trimStart cs = [] ↔ ∀ c ∈ cs, isBlank c := by
  induction cs with
  | nil => simp [trimStart]
  | cons c cs ih => by_cases hc : isBlank c <;> simp [trimStart_cons, hc, ih]

/-- What is left at the start is blank only where the text is. -/
theorem forall_mem_trimStart_iff {cs : List Char} :
    (∀ c ∈ trimStart cs, isBlank c) ↔ ∀ c ∈ cs, isBlank c := by
  induction cs with
  | nil => rfl
  | cons c cs ih => by_cases hc : isBlank c <;> simp [trimStart_cons, hc, ih]

/-- Nothing is left at either end exactly where the text is blank. -/
theorem trim_eq_nil_iff {cs : List Char} : trim cs = [] ↔ ∀ c ∈ cs, isBlank c := by
  rw [trim, trimEnd, List.reverse_eq_nil_iff, trimStart_eq_nil_iff]
  simp only [List.mem_reverse]
  exact forall_mem_trimStart_iff

theorem trimStart_eq_self {cs : List Char} (h : ∀ c ∈ cs, ¬ isBlank c) : trimStart cs = cs := by
  cases cs with
  | nil => rfl
  | cons c cs => rw [trimStart_cons, if_neg (h c List.mem_cons_self)]

/-- Nothing is trimmed of a text without blanks. -/
theorem trim_eq_self {cs : List Char} (h : ∀ c ∈ cs, ¬ isBlank c) : trim cs = cs := by
  have hreverse : ∀ c ∈ cs.reverse, ¬ isBlank c := fun c hc => h c (List.mem_reverse.mp hc)
  rw [trim, trimStart_eq_self h, trimEnd, trimStart_eq_self hreverse, List.reverse_reverse]

end Text
end ServiceKit
