import Mathlib.Data.List.Forall2
import ServiceKit.Proofs.Env.Reader
import ServiceKit.Proofs.Text.Trim

/-!
# Lists in variables

A variable that holds texts with commas between them is read as these texts, trimmed, without those
that are empty then.  What is read from any variable can be written again with any blanks around the
commas, and reads back as the same list.
-/

namespace ServiceKit

namespace Text

/-- No piece has a separator in it. -/
theorem not_mem_of_mem_pieces {separator : Char} {cs piece : List Char}
    (h : piece ∈ pieces separator cs) : separator ∉ piece := by
  induction cs generalizing piece with
  | nil =>
      rw [pieces, List.mem_singleton] at h
      rw [h]
      exact List.not_mem_nil
  | cons c cs ih =>
      rw [pieces] at h
      by_cases hc : c = separator
      · rw [if_pos hc] at h
        rcases List.mem_cons.mp h with rfl | h
        · exact List.not_mem_nil
        · exact ih h
      · obtain ⟨p, ps, hp⟩ := List.exists_cons_of_ne_nil (pieces_ne_nil separator cs)
        rw [hp] at ih
        rw [if_neg hc, hp] at h
        rcases List.mem_cons.mp h with rfl | h
        · rw [List.mem_cons, not_or]
          exact ⟨Ne.symm hc, ih List.mem_cons_self⟩
        · exact ih (List.mem_cons_of_mem p h)

end Text

namespace Environment

open Text

/-- A text, trimmed. -/
def trimmed (s : String) : String :=
  String.ofList (trim s.toList)

/-- A text is another one with blanks before and behind it. -/
def IsPadded (s t : String) : Prop :=
  Pads s.toList t.toList

/-- A text is trimmed to another one. -/
def Trims (s t : String) : Prop :=
  IsPadded s t ∧ IsTrimmed t.toList

/-- A text can be an item of a list. -/
structure IsItem (s : String) : Prop where
  ne_empty : s ≠ ""
  comma : ',' ∉ s.toList
  isTrimmed : IsTrimmed s.toList

variable {env : Environment} {name : String} {s t : String} {texts ts : List String}

theorem trims_iff : Trims s t ↔ trimmed s = t := by
  rw [Trims, IsPadded, ← trim_eq_iff, trimmed, ← String.toList_inj, String.toList_ofList]

theorem forall₂_trims_iff : List.Forall₂ Trims texts ts ↔ texts.map trimmed = ts := by
  have htrims : Trims = fun s t => trimmed s = t := funext₂ fun _ _ => propext trims_iff
  rw [htrims, ← List.forall₂_eq_eq_eq, List.forall₂_map_left_iff]

/-! ## Texts with commas between them -/

/-- Texts without commas are the pieces between the commas that are put there. -/
theorem pieces_intercalate (hne : texts ≠ []) (hcomma : ∀ s ∈ texts, ',' ∉ s.toList) :
    pieces ',' (",".intercalate texts).toList = texts.map String.toList := by
  induction texts with
  | nil => contradiction
  | cons s rest ih =>
      rw [List.forall_mem_cons] at hcomma
      cases rest with
      | nil => rw [String.intercalate_singleton, pieces_eq_singleton hcomma.1]; rfl
      | cons t rest =>
          have htext : (",".intercalate (s :: t :: rest)).toList =
              s.toList ++ ',' :: (",".intercalate (t :: rest)).toList := by
            rw [String.intercalate_cons_cons, String.toList_append, String.toList_append,
              List.append_assoc]
            rfl
          rw [htext, pieces_append, pieces_eq_singleton hcomma.1,
            ih (List.cons_ne_nil t rest) hcomma.2]
          rfl

theorem items_eq (s : String) :
    items s = ((pieces ',' s.toList).map fun piece => String.ofList (trim piece)).filter
      (· ≠ "") := by
  have hempty : ∀ cs : List Char, (String.ofList cs ≠ "") = (cs ≠ []) := by
    intro cs
    rw [← String.toList_inj.ne, String.toList_ofList]
    rfl
  rw [items, List.filter_map, List.filter_map, List.map_map]
  simp only [Function.comp_def, hempty]

/-- The items of texts without commas are the texts, trimmed, without those that are empty then. -/
theorem items_intercalate (hcomma : ∀ s ∈ texts, ',' ∉ s.toList) :
    items (",".intercalate texts) = (texts.map trimmed).filter (· ≠ "") := by
  by_cases hne : texts = []
  · subst hne
    decide
  · rw [items_eq, pieces_intercalate hne hcomma, List.map_map]
    rfl

/-! ## What is read back -/

theorem isItem_of_mem_items (h : t ∈ items s) : IsItem t := by
  rw [items_eq, List.mem_filter, List.mem_map] at h
  obtain ⟨⟨piece, hpiece, rfl⟩, hne⟩ := h
  refine ⟨of_decide_eq_true hne, ?_, ?_⟩
  · -- Trimming takes characters away, so a comma would have been in the piece before.
    rw [String.toList_ofList]
    exact fun hcomma => not_mem_of_mem_pieces hpiece ((pads_trim piece).mem hcomma)
  · rw [String.toList_ofList]
    exact isTrimmed_trim piece

theorem IsItem.comma_of_isPadded (ht : IsItem t) (h : IsPadded s t) : ',' ∉ s.toList :=
  h.not_mem (by decide) ht.comma

/-- Items with blanks around them and commas between them are read as these items. -/
theorem items_intercalate_of_isPadded (hitems : ∀ t ∈ ts, IsItem t)
    (h : List.Forall₂ IsPadded texts ts) : items (",".intercalate texts) = ts := by
  have hpairs : List.Forall₂ (fun t s => IsItem t ∧ IsPadded s t) ts texts :=
    (List.forall₂_and_left ts texts).mpr ⟨hitems, h.flip⟩
  have hread : List.Forall₂ (fun s t => ',' ∉ s.toList ∧ Trims s t) texts ts :=
    hpairs.flip.imp fun _ _ ⟨ht, hpads⟩ => ⟨ht.comma_of_isPadded hpads, hpads, ht.isTrimmed⟩
  obtain ⟨hcomma, htrims⟩ := (List.forall₂_and_left texts ts).mp hread
  have hne : ∀ t ∈ ts, decide (t ≠ "") = true := fun t ht => decide_eq_true (hitems t ht).ne_empty
  rw [items_intercalate hcomma, forall₂_trims_iff.mp htrims, List.filter_eq_self.mpr hne]

/-! ## A variable -/

theorem list_of_text (hget : env.get? name = some (Utf8.encode s.toList)) :
    env.list name = items s := by
  simp only [list, hget, lossy_encode, String.ofList_toList]

theorem isItem_of_mem_list (h : t ∈ env.list name) : IsItem t := by
  cases hget : env.get? name with
  | none =>
      rw [list, hget] at h
      exact absurd h List.not_mem_nil
  | some bytes =>
      rw [list, hget] at h
      exact isItem_of_mem_items h

/-- Texts with commas between them are read as the texts, trimmed, without those that are empty
then; and what is read from any variable are items that can be written again, with any blanks around
them, and are read as the same list. -/
theorem list_trims (env : Environment) (name : String) :
    (∀ texts, (∀ s ∈ texts, ',' ∉ s.toList) →
        env.get? name = some (Utf8.encode (",".intercalate texts).toList) →
          ∃ ts, List.Forall₂ Trims texts ts ∧ env.list name = ts.filter (· ≠ "")) ∧
      (∀ item ∈ env.list name, IsItem item) ∧
      ∀ texts, List.Forall₂ IsPadded texts (env.list name) →
        ∀ (other : Environment) (otherName : String),
          other.get? otherName = some (Utf8.encode (",".intercalate texts).toList) →
            other.list otherName = env.list name := by
  refine ⟨?_, fun item => isItem_of_mem_list, ?_⟩
  · intro texts hcomma hget
    refine ⟨texts.map trimmed, forall₂_trims_iff.mpr rfl, ?_⟩
    rw [list_of_text hget, items_intercalate hcomma]
  · intro texts htexts other otherName hget
    rw [list_of_text hget]
    exact items_intercalate_of_isPadded (fun t => isItem_of_mem_list) htexts

/-- Names with blanks of several scripts around them, one of them empty and one twice. -/
def scattered : Environment :=
  Variables.environment ⟨[("NAMES", Utf8.encode " a\u3000, ,b c,,\u00a0a".toList)]⟩

/-- The names that are read there, with other blanks around them. -/
def gathered : Environment :=
  Variables.environment ⟨[("NAMES", Utf8.encode "a ,\tb c\n,\u2003a".toList)]⟩

theorem list_trims_scattered :
    scattered.list "NAMES" = ["a", "b c", "a"] ∧
      (∀ item ∈ scattered.list "NAMES", IsItem item) ∧
      gathered.list "NAMES" = scattered.list "NAMES" := by
  obtain ⟨hread, hitems, hback⟩ := list_trims scattered "NAMES"
  have hlist : scattered.list "NAMES" = ["a", "b c", "a"] := by
    obtain ⟨ts, hts, hlist⟩ := hread [" a\u3000", " ", "b c", "", "\u00a0a"] (by decide) rfl
    have htrimmed := forall₂_trims_iff.mp hts
    rw [hlist, ← htrimmed]
    decide
  have hpadded : List.Forall₂ IsPadded ["a ", "\tb c\n", "\u2003a"] (scattered.list "NAMES") := by
    rw [hlist]
    have htrims : List.Forall₂ Trims ["a ", "\tb c\n", "\u2003a"] ["a", "b c", "a"] :=
      forall₂_trims_iff.mpr (by decide)
    exact htrims.imp fun _ _ h => h.1
  exact ⟨hlist, hitems, hback _ hpadded gathered "NAMES" rfl⟩

end Environment
end ServiceKit
