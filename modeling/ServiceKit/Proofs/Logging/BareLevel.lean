import ServiceKit.Logging.Filter
import ServiceKit.Proofs.Number.Numeral

/-!
# Bare levels as filters

A filter that is written as one level, by name or by number, lets all targets pass up to this level.
-/

namespace ServiceKit
namespace Logging

open Numeral

/-- A text is a bare level: the name of a threshold in any case of its letters, or its number. -/
inductive BareLevel (threshold : Threshold) (s : String) : Prop where
  | name (h : s.toList.map Char.toLower = threshold.name.toList)
  | number (hdigits : IsDigits s.toList) (hrank : denote s.toList = threshold.rank)

/-- A text is a word of letters and digits. -/
structure IsWord (cs : List Char) : Prop where
  ne_nil : cs ≠ []
  isAlphanum : ∀ c ∈ cs, c.isAlphanum

variable {threshold : Threshold} {target : String} {severity : Severity} {s : String}
  {c : Char} {cs : List Char}

/-! ## What passes -/

theorem passes_ofThreshold (threshold : Threshold) (target : String) (severity : Severity) :
    (Filter.ofThreshold threshold).passes target severity = threshold.passes severity :=
  rfl

/-! ## Words -/

theorem isAlphanum_iff_toNat : c.isAlphanum ↔
    ((65 ≤ c.toNat ∧ c.toNat ≤ 90) ∨ (97 ≤ c.toNat ∧ c.toNat ≤ 122)) ∨
      (48 ≤ c.toNat ∧ c.toNat ≤ 57) := by
  change ((decide ('A'.val ≤ c.val ∧ c.val ≤ 'Z'.val) ||
    (decide ('a'.val ≤ c.val) && decide (c.val ≤ 'z'.val))) ||
    (decide ('0'.val ≤ c.val) && decide (c.val ≤ '9'.val))) = true ↔ _
  simp only [Bool.or_eq_true, Bool.and_eq_true, decide_eq_true_eq, UInt32.le_iff_toNat_le]
  rfl

theorem isAlphanum_of_toLower (h : c.toLower.isAlphanum) : c.isAlphanum := by
  unfold Char.toLower at h
  split at h
  next hupper => exact isAlphanum_iff_toNat.mpr (.inl (.inl hupper))
  next => exact h

theorem isAlphanum_of_isDigit (h : IsDigit c) : c.isAlphanum := by
  rw [isAlphanum_iff_toNat]
  exact .inr h

theorem not_isBlank_of_isAlphanum (h : c.isAlphanum) : ¬ Text.isBlank c := by
  rw [isAlphanum_iff_toNat] at h
  simp only [Text.isBlank, Bool.or_eq_true, Bool.and_eq_true, decide_eq_true_eq, beq_iff_eq]
  omega

theorem IsWord.not_mem (h : IsWord cs) (hc : ¬ c.isAlphanum) : c ∉ cs :=
  fun hmem => hc (h.isAlphanum c hmem)

/-- A word that is a level is a directive for all targets. -/
theorem IsWord.directive (h : IsWord cs) (hlevel : Threshold.read? cs = some threshold) :
    Directive.read? cs = some ⟨none, threshold⟩ := by
  have htrim : Text.trim cs = cs :=
    Text.trim_eq_self fun c hc => not_isBlank_of_isAlphanum (h.isAlphanum c hc)
  have hequals : cs.contains '=' = false := by
    simpa using h.not_mem (c := '=') (by decide)
  have hbracket : cs.contains '[' = false := by
    simpa using h.not_mem (c := '[') (by decide)
  cases cs with
  | nil => exact absurd rfl h.ne_nil
  | cons c rest =>
      have hbegins : Directive.beginsDirective c = true := by
        simp [Directive.beginsDirective, h.isAlphanum c List.mem_cons_self]
      rw [Directive.read?, htrim]
      simp only [hbegins, hequals, hbracket, hlevel]
      rfl

/-- A word that is a level is the filter of this level. -/
theorem IsWord.filter (h : IsWord s.toList) (hlevel : Threshold.read? s.toList = some threshold) :
    Filter.read? s = some (.ofThreshold threshold) := by
  have hne : s ≠ "" := fun hs => h.ne_nil (by rw [hs]; rfl)
  rw [Filter.read?, if_neg hne, Text.pieces_eq_singleton (h.not_mem (by decide)),
    List.mapM_cons, h.directive hlevel]
  rfl

/-! ## Names and numbers of levels -/

theorem exists_name_eq_cons (threshold : Threshold) :
    ∃ d rest, threshold.name.toList = d :: rest ∧ ¬ IsDigit d := by
  unfold IsDigit
  rcases threshold with _ | (_ | _ | _ | _ | _) <;> exact ⟨_, _, rfl, by decide⟩

theorem all_isAlphanum_name (threshold : Threshold) :
    threshold.name.toList.all Char.isAlphanum := by
  rcases threshold with _ | (_ | _ | _ | _ | _) <;> rfl

theorem ofName?_eq_of_name (h : cs.map Char.toLower = threshold.name.toList) :
    Threshold.ofName? cs = some threshold := by
  rw [Threshold.ofName?, h]
  rcases threshold with _ | (_ | _ | _ | _ | _) <;> rfl

theorem ofNumber?_rank (threshold : Threshold) :
    Threshold.ofNumber? threshold.rank = some threshold := by
  rcases threshold with _ | (_ | _ | _ | _ | _) <;> rfl

theorem rank_le (threshold : Threshold) : threshold.rank ≤ 5 := by
  rcases threshold with _ | (_ | _ | _ | _ | _) <;> decide

theorem isWord_of_name (h : cs.map Char.toLower = threshold.name.toList) : IsWord cs where
  ne_nil := by
    rintro rfl
    obtain ⟨d, rest, hname, -⟩ := exists_name_eq_cons threshold
    rw [hname] at h
    contradiction
  isAlphanum c hc :=
    isAlphanum_of_toLower (List.all_eq_true.mp (all_isAlphanum_name threshold) c.toLower
      (h ▸ List.mem_map_of_mem hc))

theorem isWord_of_isDigits (h : IsDigits cs) : IsWord cs where
  ne_nil := h.ne_nil
  isAlphanum c hc := isAlphanum_of_isDigit (h.isDigit c hc)

theorem toLower_of_isDigit (h : IsDigit c) : c.toLower = c := by
  have hle : c.toNat ≤ 57 := h.2
  unfold Char.toLower
  split
  next hupper =>
    have hge : 65 ≤ c.toNat := hupper.1
    omega
  next => rfl

/-- A name is no number. -/
theorem read_ne_ok_of_name {value : Int} (h : cs.map Char.toLower = threshold.name.toList) :
    Numeral.read (.unsigned 64) cs ≠ .ok value := by
  intro hread
  obtain ⟨n, hn, -⟩ := (read_eq_ok_iff rfl).mp hread
  cases hn with
  | bare hdigits =>
      -- digits have no case, so a name of digits would itself be the lower-case one
      have hlower : cs.map Char.toLower = cs :=
        (List.map_congr_left fun c hc => toLower_of_isDigit (hdigits.isDigit c hc)).trans
          (List.map_id cs)
      obtain ⟨d, rest, hname, hd⟩ := exists_name_eq_cons threshold
      rw [hlower, hname] at h
      exact hd (hdigits.isDigit d (h ▸ List.mem_cons_self))
  | plus hdigits => exact (isWord_of_name h).not_mem (c := '+') (by decide) List.mem_cons_self

theorem BareLevel.isWord (h : BareLevel threshold s) : IsWord s.toList := by
  cases h with
  | name hname => exact isWord_of_name hname
  | number hdigits => exact isWord_of_isDigits hdigits

theorem BareLevel.read?_eq (h : BareLevel threshold s) :
    Threshold.read? s.toList = some threshold := by
  cases h with
  | name hname =>
      cases hread : Numeral.read (.unsigned 64) s.toList with
      | ok value => exact absurd hread (read_ne_ok_of_name hname)
      | error e =>
          rw [Threshold.read?, hread]
          exact ofName?_eq_of_name hname
  | number hdigits hrank =>
      have hread : Numeral.read (.unsigned 64) s.toList = .ok (threshold.rank : Int) := by
        refine (read_eq_ok_iff rfl).mpr ⟨denote s.toList, .bare hdigits, ?_, ?_⟩
        · rw [hrank]
        · have hle : (threshold.rank : Int) ≤ 5 := Int.ofNat_le.mpr (rank_le threshold)
          exact Int.le_trans hle (by decide)
      rw [Threshold.read?, hread]
      exact ofNumber?_rank threshold

/-- A bare level is the filter of this level. -/
theorem BareLevel.filter (h : BareLevel threshold s) :
    Filter.read? s = some (.ofThreshold threshold) :=
  h.isWord.filter h.read?_eq

end Logging
end ServiceKit
