import ServiceKit.Proofs.Env.Filling

/-!
# Changes to an environment file

Nothing is lost with a malformed line of a file and what follows it, or with assignments that do not
count, and comments add nothing.
-/

namespace ServiceKit
namespace EnvFile

/-- A change to a file that does not change what it fills in: an end of the file behind a malformed
line is cut off, an assignment to a variable that holds text or is assigned before is left out, a
comment is put between two lines, or the last line is ended. -/
inductive Edit (env : Environment) : List (List Char) → List (List Char) → Prop where
  | cut {before after : List (List Char)} {chunk : List Char}
      (hline : linesOf chunk = [.malformed]) : Edit env (before ++ chunk :: after) before
  | set {before after : List (List Char)} {chunk value : List Char} {key : String}
      (hline : linesOf chunk = [.assignment key value]) (hset : env.HoldsText key) :
      Edit env (before ++ chunk :: after) (before ++ after)
  | later {before after : List (List Char)} {chunk first value other : List Char} {key : String}
      (hline : linesOf chunk = [.assignment key value]) (hfirst : first ∈ before)
      (hother : linesOf first = [.assignment key other]) :
      Edit env (before ++ chunk :: after) (before ++ after)
  | comment {before after : List (List Char)} {chunk : List Char} (hcomment : IsComment chunk)
      (hbefore : EndsLine before.flatten) (hclean : ∀ first ∈ before, linesOf first ≠ [.malformed])
      (hafter : after = [] ∨ EndsLine chunk) : Edit env (before ++ after) (before ++ chunk :: after)
  | ended {before : List (List Char)} {last : List Char} (hends : ¬ EndsLine last)
      (hline : linesOf last ≠ [.malformed]) :
      Edit env (before ++ [last]) (before ++ [last ++ ['\n']])

variable {env : Environment} {cs ds value other : List Char}
  {chunks edited before after : List (List Char)} {chunk : List Char} {line : Line}
  {ls : List Line} {key name : String}

/-! ## Lines that do not count -/

/-- Lines behind a malformed one do not count. -/
theorem assignments_cut (ls ms : List Line) :
    assignments (ls ++ .malformed :: ms) = assignments ls := by
  by_cases hclean : .malformed ∈ ls
  · exact assignments_append_of_mem hclean _
  · rw [assignments_append hclean, assignments, List.append_nil]

theorem assignments_blank (ls ms : List Line) :
    assignments (ls ++ .blank :: ms) = assignments (ls ++ ms) := by
  by_cases hclean : .malformed ∈ ls
  · rw [assignments_append_of_mem hclean, assignments_append_of_mem hclean]
  · rw [assignments_append hclean, assignments_append hclean, assignments]

theorem lookup_assignments_of_ne (hname : name ≠ key) (ls ms : List Line) :
    (assignments (ls ++ .assignment key value :: ms)).lookup name =
      (assignments (ls ++ ms)).lookup name := by
  by_cases hclean : .malformed ∈ ls
  · rw [assignments_append_of_mem hclean, assignments_append_of_mem hclean]
  · rw [assignments_append hclean, assignments_append hclean, assignments, List.lookup_append,
      List.lookup_append, List.lookup_cons, beq_eq_false_iff_ne.mpr hname]

/-- A variable that is assigned needs no further lines. -/
theorem lookup_assignments_of_mem (h : .assignment key other ∈ ls) (ms : List Line) :
    (assignments (ls ++ ms)).lookup key = (assignments ls).lookup key := by
  by_cases hclean : .malformed ∈ ls
  · rw [assignments_append_of_mem hclean]
  · rw [assignments_append hclean, List.lookup_append]
    cases hlookup : (assignments ls).lookup key with
    | none =>
        have hnone := List.lookup_eq_none_iff.mp hlookup _ (mem_assignments hclean h)
        simp at hnone
    | some first => rfl

/-! ## Changed chunks -/

theorem EndsLine.of_append (h : EndsLine (cs ++ ds)) : EndsLine ds := by
  rcases h with hnil | ⟨init, hinit⟩
  · exact .inl (List.append_eq_nil_iff.mp hnil).2
  · rcases List.eq_nil_or_concat ds with rfl | ⟨ds, d, rfl⟩
    · exact .inl rfl
    · rw [List.concat_eq_append, ← List.append_assoc] at hinit
      obtain ⟨-, hlast⟩ := List.append_inj' hinit rfl
      exact .inr ⟨ds, by rw [List.concat_eq_append, hlast]⟩

theorem closed_of_linesOf (h : linesOf cs = [line]) (hline : linesOf cs ≠ [.malformed]) :
    none ∉ joined cs := by
  intro hnone
  have hmem : Line.malformed ∈ linesOf cs := List.mem_map_of_mem hnone
  rw [h, List.mem_singleton] at hmem
  exact hline (by rw [h, hmem])

theorem isWhole_of_isComment (hcomment : IsComment cs) (hends : EndsLine cs) : IsWhole cs where
  endsLine := hends
  closed := by
    have hline := linesOf_of_isComment hcomment
    exact closed_of_linesOf hline (by rw [hline]; decide)

theorem IsCut.linesOf_eq (h : IsCut cs chunks) : linesOf cs = chunks.flatMap linesOf := by
  rw [← h.flatten, flatMap_linesOf h.whole]

/-- Chunks without a malformed one, the last of which ends its line, are whole. -/
theorem IsCut.isWhole_of_mem (hcut : IsCut cs (before ++ after)) (hends : EndsLine before.flatten)
    (hclean : ∀ first ∈ before, linesOf first ≠ [.malformed]) (h : chunk ∈ before) :
    IsWhole chunk := by
  obtain ⟨init, rest, rfl⟩ := List.append_of_mem h
  have hwhole := hcut.whole
  rw [List.append_assoc, List.cons_append, List.dropLast_append_cons] at hwhole
  by_cases hlast : rest ++ after = []
  · obtain ⟨line, hline⟩ := hcut.line chunk (List.mem_append_left after h)
    rw [(List.append_eq_nil_iff.mp hlast).1, List.flatten_append, List.flatten_singleton] at hends
    exact ⟨hends.of_append, closed_of_linesOf hline (hclean chunk h)⟩
  · refine hwhole chunk (List.mem_append_right init ?_)
    rw [List.dropLast_cons_of_ne_nil hlast]
    exact List.mem_cons_self

theorem mem_dropLast_insert {first : List Char} (h : first ∈ (before ++ after).dropLast)
    (chunk : List Char) : first ∈ (before ++ chunk :: after).dropLast := by
  rw [List.dropLast_append_cons]
  cases after with
  | nil =>
      rw [List.append_nil] at h
      exact List.mem_append_left _ (List.dropLast_subset _ h)
  | cons next after =>
      rw [List.dropLast_append_cons, List.mem_append] at h
      rw [List.dropLast_cons_cons, List.mem_append]
      exact h.imp_right (List.mem_cons_of_mem chunk)

theorem Edit.linesOf_eq (h : Edit env chunks edited) (hcut : IsCut cs chunks) :
    linesOf edited.flatten = edited.flatMap linesOf := by
  refine flatMap_linesOf fun first hfirst => ?_
  have hwhole := hcut.whole
  cases h with
  | cut =>
      rw [List.dropLast_append_cons] at hwhole
      exact hwhole first (List.mem_append_left _ (List.dropLast_subset _ hfirst))
  | set => exact hwhole first (mem_dropLast_insert hfirst _)
  | later => exact hwhole first (mem_dropLast_insert hfirst _)
  | @comment before after chunk hcomment hbefore hclean hafter =>
      rw [List.dropLast_append_cons, List.mem_append] at hfirst
      rcases hfirst with hfirst | hfirst
      · exact hcut.isWhole_of_mem hbefore hclean hfirst
      · cases after with
        | nil => contradiction
        | cons next after =>
            rw [List.dropLast_cons_cons, List.mem_cons] at hfirst
            rcases hfirst with rfl | hfirst
            · exact isWhole_of_isComment hcomment (hafter.resolve_left nofun)
            · rw [List.dropLast_append_cons] at hwhole
              exact hwhole first (List.mem_append_right _ hfirst)
  | ended =>
      rw [List.dropLast_concat] at hfirst hwhole
      exact hwhole first hfirst

/-- Where a variable holds no text, a changed file gives it the same value. -/
theorem Edit.lookup_eq (h : Edit env chunks edited) (hcut : IsCut cs chunks)
    (htext : ¬ env.HoldsText name) : (assignments (linesOf edited.flatten)).lookup name =
      (assignments (linesOf cs)).lookup name := by
  rw [h.linesOf_eq hcut, hcut.linesOf_eq]
  cases h with
  | cut hline => rw [List.flatMap_append, List.flatMap_cons, hline, List.singleton_append,
      assignments_cut]
  | @set before after chunk value key hline hset =>
      have hname : name ≠ key := by
        rintro rfl
        exact htext hset
      rw [List.flatMap_append, List.flatMap_append, List.flatMap_cons, hline,
        List.singleton_append, lookup_assignments_of_ne hname]
  | @later before after chunk first value other key hline hfirst hother =>
      rw [List.flatMap_append, List.flatMap_append, List.flatMap_cons, hline,
        List.singleton_append]
      by_cases hname : name = key
      · subst hname
        have hmem : .assignment name other ∈ before.flatMap linesOf :=
          List.mem_flatMap.mpr ⟨first, hfirst, by rw [hother]; exact List.mem_singleton_self _⟩
        rw [lookup_assignments_of_mem hmem, lookup_assignments_of_mem hmem]
      · rw [lookup_assignments_of_ne hname]
  | comment hcomment _ _ _ =>
      rw [List.flatMap_append, List.flatMap_append, List.flatMap_cons,
        linesOf_of_isComment hcomment, List.singleton_append, assignments_blank]
  | @ended before last hends hline =>
      obtain ⟨line, hlast⟩ := hcut.line last (List.mem_append_right _ List.mem_cons_self)
      rw [List.flatMap_append, List.flatMap_append, List.flatMap_singleton,
        List.flatMap_singleton, linesOf_concat hends (closed_of_linesOf hlast hline)]

end EnvFile

namespace ServiceConfig

open EnvFile

/-- A file does nothing to the configuration of a process but fill in variables, unless a value that
counts cannot be set, and no change to the file that leaves what it fills in makes a difference. -/
structure OnlyFillsIn (vars : Variables) (file : EnvFile) : Prop where
  exists_fills : ∃ filled, vars.processEnvironment.Fills (lines file.text) filled
  eq_none_iff : loadProcess vars (some file) = none ↔
    vars.processEnvironment.CannotFill (lines file.text)
  load_eq : ¬ vars.processEnvironment.CannotFill (lines file.text) →
    ∀ filled, vars.processEnvironment.Fills (lines file.text) filled →
      loadProcess vars (some file) = some (load filled)
  exists_isCut : ∃ chunks, IsCut (withoutMark file.text.toList) chunks
  lines_eq : ∀ chunks, IsCut (withoutMark file.text.toList) chunks →
    lines file.text = chunks.flatMap linesOf
  edit : ∀ (chunks edited : List (List Char)) (other : EnvFile),
    IsCut (withoutMark file.text.toList) chunks → Edit vars.processEnvironment chunks edited →
      withoutMark other.text.toList = edited.flatten →
        loadProcess vars (some other) = loadProcess vars (some file)

/-- Files that give every variable without a text the same value lead to the same configuration. -/
theorem loadProcess_congr {vars : Variables} {file other : EnvFile}
    (h : ∀ name, ¬ vars.processEnvironment.HoldsText name →
      (assignments (lines other.text)).lookup name = (assignments (lines file.text)).lookup name) :
    loadProcess vars (some other) = loadProcess vars (some file) := by
  by_cases hfill : vars.processEnvironment.CannotFill (lines file.text)
  · rw [loadProcess_eq_none_iff.mpr hfill,
      loadProcess_eq_none_iff.mpr ((Environment.cannotFill_congr h).mpr hfill)]
  · rw [loadProcess_some hfill,
      loadProcess_some (mt (Environment.cannotFill_congr h).mp hfill),
      Environment.fillIn_congr h]

/-- For every file, malformed lines included, the configuration of a process is what is read where
the file has been filled in. -/
theorem loadProcess_onlyFillsIn (vars : Variables) (file : EnvFile) : OnlyFillsIn vars file where
  exists_fills := ⟨_, vars.processEnvironment.fills_fillIn (lines file.text)⟩
  eq_none_iff := loadProcess_eq_none_iff
  load_eq := fun hset _ => loadProcess_eq_load hset
  exists_isCut := exists_isCut _
  lines_eq := fun _ hcut => hcut.linesOf_eq
  edit := by
    intro chunks edited other hcut hedit hother
    refine loadProcess_congr fun name htext => ?_
    rw [lines_eq, lines_eq, hother]
    exact hedit.lookup_eq hcut htext

/-- A file can stop a process. -/
example : loadProcess ⟨[]⟩ (some ⟨"A=\x00\n", by decide⟩) = none := by
  decide +kernel

/-- The service is named by a byte that no text has. -/
def misnamed : Variables :=
  ⟨[("SERVICE_NAME", [0xff])]⟩

/-- A file that names the service. -/
def naming : EnvFile :=
  ⟨"SERVICE_NAME=x\n", by decide⟩

/-- A variable that is set keeps its value only if that is a text: here the file assigns nothing
else, and still makes a difference. -/
theorem loadProcess_misnamed :
    misnamed.processEnvironment.get? "SERVICE_NAME" = some [0xff] ∧
      assignments (lines naming.text) = [("SERVICE_NAME", ['x'])] ∧
      loadProcess misnamed (some naming) ≠ some (load misnamed.processEnvironment) ∧
      (loadProcess misnamed (some naming)).map (Except.map serviceName) = some (.ok "x") ∧
      (load misnamed.processEnvironment).map serviceName = .ok "\ufffd" := by
  decide +kernel

end ServiceConfig

end ServiceKit
