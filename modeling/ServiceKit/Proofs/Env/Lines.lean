import ServiceKit.Env.File
import ServiceKit.Proofs.Env.Items

/-!
# Cutting an environment file into its lines

A line is read from one or more physical lines, as many as quotes and escapes join.  A text that
ends a line with nothing open is read for itself whatever follows it.  So every text falls into
chunks, each of which is read as one line.
-/

namespace ServiceKit
namespace EnvFile

/-- The physical lines of a text, with their ends. -/
def physical (cs : List Char) : List (List Char) :=
  endedLines (Text.pieces '\n' cs)

/-- The lines that the physical lines of a text are joined to. -/
def joined (cs : List Char) : List (Option (List Char)) :=
  joinLines .nothing [] (physical cs)

/-- What the lines of a text say. -/
def linesOf (cs : List Char) : List Line :=
  (joined cs).map Line.ofJoined

theorem lines_eq (s : String) : lines s = linesOf (withoutMark s.toList) :=
  rfl

/-- A text ends its last line. -/
def EndsLine (cs : List Char) : Prop :=
  cs = [] ∨ ∃ init, cs = init ++ ['\n']

/-- A text ends its last line, with nothing left open there. -/
structure IsWhole (cs : List Char) : Prop where
  endsLine : EndsLine cs
  closed : none ∉ joined cs

/-- A text is cut into chunks that are read as one line each. -/
structure IsCut (cs : List Char) (chunks : List (List Char)) : Prop where
  flatten : chunks.flatten = cs
  line : ∀ chunk ∈ chunks, ∃ line, linesOf chunk = [line]
  whole : ∀ chunk ∈ chunks.dropLast, IsWhole chunk

/-- A physical line, ended or not, whose first character behind blanks is a number sign. -/
def IsComment (cs : List Char) : Prop :=
  ∃ line, '\n' ∉ line ∧ (Text.trimStart line).head? = some '#' ∧ (cs = line ∨ cs = line ++ ['\n'])

variable {cs ds line start : List Char} {ls ms chunks : List (List Char)} {opened : Opened}

theorem EndsLine.line_append (h : EndsLine cs) (line : List Char) :
    EndsLine (line ++ ['\n'] ++ cs) := by
  rcases h with rfl | ⟨init, rfl⟩
  · exact .inr ⟨line, List.append_nil _⟩
  · exact .inr ⟨line ++ ['\n'] ++ init, (List.append_assoc _ _ _).symm⟩

/-! ## Physical lines -/

theorem endedLines_append (h : ms ≠ []) :
    endedLines (ls ++ ms) = ls.map (· ++ ['\n']) ++ endedLines ms := by
  induction ls with
  | nil => rfl
  | cons line ls ih =>
      rw [List.cons_append, List.map_cons, List.cons_append, ← ih, endedLines]
      simp [h]

theorem physical_append_cons (cs ds : List Char) :
    physical (cs ++ '\n' :: ds) = (Text.pieces '\n' cs).map (· ++ ['\n']) ++ physical ds := by
  rw [physical, Text.pieces_append, endedLines_append (Text.pieces_ne_nil _ _), physical]

theorem physical_append (h : EndsLine cs) : physical (cs ++ ds) = physical cs ++ physical ds := by
  rcases h with rfl | ⟨init, rfl⟩
  · rfl
  · have hend : physical (init ++ ['\n']) = (Text.pieces '\n' init).map (· ++ ['\n']) := by
      rw [physical_append_cons]
      exact List.append_nil _
    rw [List.append_assoc, List.singleton_append, physical_append_cons, hend]

theorem physical_of_not_mem (h : '\n' ∉ line) (hne : line ≠ []) : physical line = [line] := by
  rw [physical, Text.pieces_eq_singleton h, endedLines, if_neg hne]

theorem physical_line_append (h : '\n' ∉ line) (ds : List Char) :
    physical (line ++ '\n' :: ds) = (line ++ ['\n']) :: physical ds := by
  rw [physical_append_cons, Text.pieces_eq_singleton h]
  rfl

/-- Lines are the physical lines of a text: all but the last are ended, and there only. -/
inductive Physical : List (List Char) → Prop where
  | nil : Physical []
  | last {line : List Char} (hend : '\n' ∉ line) (hne : line ≠ []) : Physical [line]
  | cons {line : List Char} {rest : List (List Char)} (hend : '\n' ∉ line) (hrest : Physical rest) :
      Physical ((line ++ ['\n']) :: rest)

theorem physical_endedLines {ps : List (List Char)} (h : ∀ p ∈ ps, '\n' ∉ p) :
    Physical (endedLines ps) ∧ (endedLines ps).flatten = Text.joinPieces '\n' ps := by
  fun_induction endedLines ps with
  | case1 => exact ⟨.nil, rfl⟩
  | case2 => exact ⟨.nil, rfl⟩
  | case3 last hne => exact ⟨.last (h last List.mem_cons_self) hne, by simp [Text.joinPieces]⟩
  | case4 line rest hrest ih =>
      obtain ⟨hphysical, hflatten⟩ := ih fun p hp => h p (List.mem_cons_of_mem line hp)
      refine ⟨.cons (h line List.mem_cons_self) hphysical, ?_⟩
      cases rest with
      | nil => contradiction
      | cons next rest => simp [Text.joinPieces, hflatten]

theorem physical_physical (cs : List Char) : Physical (physical cs) :=
  (physical_endedLines fun _ => Text.not_mem_of_mem_pieces).1

theorem flatten_physical (cs : List Char) : (physical cs).flatten = cs := by
  rw [physical, (physical_endedLines fun _ => Text.not_mem_of_mem_pieces).2,
    Text.joinPieces_pieces]

namespace Physical

theorem physical_flatten (h : Physical ls) : physical ls.flatten = ls := by
  induction h with
  | nil => rfl
  | last hend hne => rw [List.flatten_singleton, physical_of_not_mem hend hne]
  | @cons line rest hend _ ih =>
      rw [List.flatten_cons, List.append_assoc, List.singleton_append, physical_line_append hend,
        ih]

theorem of_append (h : Physical (ls ++ ms)) : Physical ls ∧ Physical ms := by
  induction ls with
  | nil => exact ⟨.nil, h⟩
  | cons line ls ih =>
      generalize hall : line :: ls ++ ms = all at h
      cases h with
      | nil => contradiction
      | last hend hne =>
          obtain ⟨rfl, hnil⟩ := List.cons.inj hall
          obtain ⟨rfl, rfl⟩ := List.append_eq_nil_iff.mp hnil
          exact ⟨.last hend hne, .nil⟩
      | cons hend hrest =>
          obtain ⟨rfl, rfl⟩ := List.cons.inj hall
          exact ⟨.cons hend (ih hrest).1, (ih hrest).2⟩

/-- Only the last line can lack an end. -/
theorem endsLine (h : Physical (ls ++ ms)) (hne : ms ≠ []) : EndsLine ls.flatten := by
  induction ls with
  | nil => exact .inl rfl
  | cons line ls ih =>
      generalize hall : line :: ls ++ ms = all at h
      cases h with
      | nil => contradiction
      | last hend _ =>
          obtain ⟨rfl, hnil⟩ := List.cons.inj hall
          exact absurd (List.append_eq_nil_iff.mp hnil).2 hne
      | @cons line rest hend hrest =>
          obtain ⟨rfl, rfl⟩ := List.cons.inj hall
          exact (ih hrest).line_append line

/-- A last line that lacks an end can be given one. -/
theorem exists_concat (h : Physical ls) (hends : ¬ EndsLine ls.flatten) :
    ∃ init last, ls = init ++ [last] ∧ Physical (init ++ [last ++ ['\n']]) := by
  induction h with
  | nil => exact absurd (.inl rfl) hends
  | @last line hend _ => exact ⟨[], line, rfl, .cons hend .nil⟩
  | @cons line rest hend _ ih =>
      obtain ⟨init, last, rfl, hphysical⟩ := ih fun hrest => hends (hrest.line_append line)
      exact ⟨(line ++ ['\n']) :: init, last, rfl, .cons hend hphysical⟩

end Physical

/-! ## Joining -/

/-- A physical line either ends the line that is read, or is joined with what follows. -/
theorem joinLines_cons (opened : Opened) (start line : List Char) :
    (∃ text, ∀ rest,
      joinLines opened start (line :: rest) = some text :: joinLines .nothing [] rest) ∨
    ∃ next, next ≠ .nothing ∧ ∀ rest,
      joinLines opened start (line :: rest) = joinLines next (start ++ line) rest := by
  by_cases hcomment : (Text.trimStart (start ++ line)).head? = some '#'
  · refine .inl ⟨[], fun rest => ?_⟩
    rw [joinLines, if_pos hcomment]
  · rcases hscan : scan opened line with ⟨kept, last⟩
    cases last with
    | none =>
        refine .inl ⟨start ++ kept, fun rest => ?_⟩
        rw [joinLines, if_neg hcomment, hscan]
    | some next =>
        by_cases hnext : next = .nothing
        · refine .inl ⟨start ++ line, fun rest => ?_⟩
          rw [joinLines, if_neg hcomment, hscan, hnext]
        · refine .inr ⟨next, hnext, fun rest => ?_⟩
          rw [joinLines, if_neg hcomment, hscan]
          cases next <;> first | contradiction | rfl

/-- Where nothing is left open, the lines behind are joined among themselves. -/
theorem joinLines_append (hstart : opened = .nothing → start = [])
    (hclosed : none ∉ joinLines opened start ls) :
    joinLines opened start (ls ++ ms) =
      joinLines opened start ls ++ joinLines .nothing [] ms := by
  induction ls generalizing opened start with
  | nil =>
      by_cases hopened : opened = .nothing
      · rw [hopened, hstart hopened]
        rfl
      · simp [joinLines, hopened] at hclosed
  | cons line ls ih =>
      rw [List.cons_append]
      obtain ⟨text, hends⟩ | ⟨next, hnext, hjoins⟩ := joinLines_cons opened start line
      · rw [hends] at hclosed
        rw [hends, hends, List.cons_append,
          ih (fun _ => rfl) fun hnone => hclosed (List.mem_cons_of_mem _ hnone)]
      · rw [hjoins] at hclosed
        rw [hjoins, hjoins, ih (fun h => absurd h hnext) hclosed]

/-- The physical lines that the first line is read from.  Only at the end of the file can something
be left open. -/
theorem exists_joinLines_eq_singleton (h : opened ≠ .nothing ∨ ls ≠ []) :
    ∃ group rest line, ls = group ++ rest ∧ joinLines opened start group = [line] ∧
      (rest = [] ∨ line ≠ none) ∧ (group = [] → ls = []) := by
  induction ls generalizing opened start with
  | nil =>
      have hopened : opened ≠ .nothing := h.resolve_right fun hne => hne rfl
      exact ⟨[], [], none, rfl, if_neg hopened, .inl rfl, id⟩
  | cons line ls ih =>
      obtain ⟨text, hends⟩ | ⟨next, hnext, hjoins⟩ := joinLines_cons opened start line
      · exact ⟨[line], ls, some text, rfl, hends [], .inr nofun, nofun⟩
      · obtain ⟨group, rest, text, rfl, hgroup, hrest, -⟩ := @ih (start ++ line) next (.inl hnext)
        exact ⟨line :: group, rest, text, rfl, (hjoins group).trans hgroup, hrest, nofun⟩

/-! ## Whole texts -/

namespace IsWhole

theorem nil : IsWhole [] where
  endsLine := .inl rfl
  closed := List.not_mem_nil

/-- What follows a whole text is read for itself. -/
theorem joined_append (h : IsWhole cs) (ds : List Char) :
    joined (cs ++ ds) = joined cs ++ joined ds := by
  rw [joined, physical_append h.endsLine]
  exact joinLines_append (fun _ => rfl) h.closed

theorem linesOf_append (h : IsWhole cs) (ds : List Char) :
    linesOf (cs ++ ds) = linesOf cs ++ linesOf ds := by
  rw [linesOf, h.joined_append, List.map_append, linesOf, linesOf]

end IsWhole

theorem flatMap_linesOf (h : ∀ chunk ∈ chunks.dropLast, IsWhole chunk) :
    linesOf chunks.flatten = chunks.flatMap linesOf := by
  induction chunks with
  | nil => rfl
  | cons chunk chunks ih =>
      by_cases hnil : chunks = []
      · subst hnil
        simp
      · rw [List.dropLast_cons_of_ne_nil hnil, List.forall_mem_cons] at h
        rw [List.flatten_cons, h.1.linesOf_append, ih h.2, List.flatMap_cons]

/-- A line that is read, in front of the chunks of what follows it. -/
theorem IsCut.cons {line : Option (List Char)} (hjoined : joined cs = [line])
    (hwhole : ds ≠ [] → IsWhole cs) (h : IsCut ds chunks) : IsCut (cs ++ ds) (cs :: chunks) where
  flatten := by rw [List.flatten_cons, h.flatten]
  line := by
    refine List.forall_mem_cons.mpr ⟨⟨.ofJoined line, ?_⟩, h.line⟩
    rw [linesOf, hjoined, List.map_singleton]
  whole := by
    by_cases hnil : chunks = []
    · subst hnil
      exact nofun
    · rw [List.dropLast_cons_of_ne_nil hnil, List.forall_mem_cons]
      refine ⟨hwhole ?_, h.whole⟩
      rintro rfl
      obtain ⟨chunk, hchunk⟩ := List.exists_mem_of_ne_nil chunks hnil
      obtain ⟨line, hline⟩ := h.line chunk hchunk
      rw [List.flatten_eq_nil_iff.mp h.flatten chunk hchunk] at hline
      contradiction

theorem Physical.exists_isCut (h : Physical ls) : ∃ chunks, IsCut ls.flatten chunks := by
  induction hlength : ls.length using Nat.strongRecOn generalizing ls with
  | ind n ih =>
      by_cases hnil : ls = []
      · subst hnil
        exact ⟨[], rfl, nofun, nofun⟩
      obtain ⟨group, rest, line, rfl, hgroup, hlast, hne⟩ :=
        @exists_joinLines_eq_singleton [] ls .nothing (.inr hnil)
      obtain ⟨hphysical, hphysicalRest⟩ := h.of_append
      have hpos : 0 < group.length := List.length_pos_iff.mpr fun hnone => hnil (hne hnone)
      have hshorter : rest.length < n := by
        rw [List.length_append] at hlength
        omega
      obtain ⟨chunks, hcut⟩ := ih rest.length hshorter hphysicalRest rfl
      have hjoined : joined group.flatten = [line] := by
        rw [joined, hphysical.physical_flatten, hgroup]
      rw [List.flatten_append]
      refine ⟨_, hcut.cons hjoined fun hrest => ?_⟩
      have hrestNe : rest ≠ [] := by
        rintro rfl
        exact hrest rfl
      have hline : line ≠ none := hlast.resolve_left hrestNe
      exact ⟨h.endsLine hrestNe, by rw [hjoined, List.mem_singleton]; exact hline.symm⟩

theorem exists_isCut (cs : List Char) : ∃ chunks, IsCut cs chunks := by
  have hcut := (physical_physical cs).exists_isCut
  rwa [flatten_physical] at hcut

/-! ## Comments -/

theorem isBlankText_newline : Text.IsBlankText ['\n'] := by
  intro c hc
  rw [List.mem_singleton.mp hc]
  decide

/-- An end behind a line does not show at its start. -/
theorem head?_trimStart_concat (cs : List Char) :
    (Text.trimStart (cs ++ ['\n'])).head? = (Text.trimStart cs).head? := by
  by_cases hblank : Text.IsBlankText cs
  · rw [Text.trimStart_append_of_blank hblank, Text.trimStart_eq_nil_iff.mpr hblank,
      Text.trimStart_eq_nil_iff.mpr isBlankText_newline]
  · have hne : Text.trimStart cs ≠ [] := mt Text.trimStart_eq_nil_iff.mp hblank
    rw [Text.trimStart_append hblank, List.head?_append_of_ne_nil _ hne]

theorem linesOf_of_isComment (h : IsComment cs) : linesOf cs = [.blank] := by
  obtain ⟨line, hend, hhead, hcs⟩ := h
  have hphysical : physical cs = [cs] := by
    rcases hcs with rfl | rfl
    · refine physical_of_not_mem hend ?_
      rintro rfl
      contradiction
    · rw [physical_line_append hend]
      rfl
  have hcomment : (Text.trimStart ([] ++ cs)).head? = some '#' := by
    rcases hcs with rfl | rfl
    · exact hhead
    · exact (head?_trimStart_concat line).trans hhead
  rw [linesOf, joined, hphysical, joinLines, if_pos hcomment]
  rfl

/-! ## Ending the last line -/

theorem read_concat (line : List Char) : Line.read (line ++ ['\n']) = Line.read line := by
  have hpads : Text.Pads (line ++ ['\n']) line := ⟨[], ['\n'], nofun, isBlankText_newline, rfl⟩
  rw [Line.read, hpads.trim_eq, ← Line.read]

/-- A scan that a comment ends does not reach what follows; another goes on from what is open. -/
theorem scan_append (opened : Opened) (cs ds : List Char) :
    scan opened (cs ++ ds) =
      match scan opened cs with
      | (kept, none) => (kept, none)
      | (kept, some next) => ((kept ++ (scan next ds).1), (scan next ds).2) := by
  induction cs generalizing opened with
  | nil => rfl
  | cons c cs ih =>
      rw [List.cons_append, scan, scan]
      by_cases hcomment : opened = .blank ∧ c = '#'
      · rw [if_pos hcomment, if_pos hcomment]
      · rw [if_neg hcomment, if_neg hcomment, ih]
        rcases scan (opened.next c) cs with ⟨kept, _ | next⟩ <;> rfl

/-- Where nothing is left open, an end behind the last line changes nothing. -/
theorem joinLines_concat (hclosed : none ∉ joinLines opened start (ls ++ [line])) :
    (joinLines opened start (ls ++ [line ++ ['\n']])).map Line.ofJoined =
      (joinLines opened start (ls ++ [line])).map Line.ofJoined := by
  induction ls generalizing opened start with
  | nil =>
      rw [List.nil_append] at hclosed ⊢
      rw [List.nil_append]
      unfold joinLines at hclosed ⊢
      rw [← List.append_assoc, head?_trimStart_concat]
      by_cases hcomment : (Text.trimStart (start ++ line)).head? = some '#'
      · rw [if_pos hcomment, if_pos hcomment]
      · rw [if_neg hcomment] at hclosed ⊢
        rw [if_neg hcomment, scan_append]
        rcases hscan : scan opened line with ⟨kept, _ | next⟩
        · rfl
        · rw [hscan] at hclosed
          cases next
          case nothing => exact congrArg (· :: []) (read_concat (start ++ line))
          all_goals simp [joinLines] at hclosed
  | cons first ls ih =>
      rw [List.cons_append] at hclosed ⊢
      rw [List.cons_append]
      obtain ⟨text, hends⟩ | ⟨next, hnext, hjoins⟩ := joinLines_cons opened start first
      · rw [hends] at hclosed
        rw [hends, hends, List.map_cons, List.map_cons,
          ih fun hnone => hclosed (List.mem_cons_of_mem _ hnone)]
      · rw [hjoins] at hclosed
        rw [hjoins, hjoins, ih hclosed]

theorem linesOf_concat (hends : ¬ EndsLine cs) (hclosed : none ∉ joined cs) :
    linesOf (cs ++ ['\n']) = linesOf cs := by
  have hphysical := physical_physical cs
  have hflatten := flatten_physical cs
  obtain ⟨init, last, hcs, hended⟩ := hphysical.exists_concat (by rwa [hflatten])
  have hconcat : physical (cs ++ ['\n']) = init ++ [last ++ ['\n']] := by
    rw [← hended.physical_flatten, ← hflatten, hcs]
    simp
  rw [joined, hcs] at hclosed
  rw [linesOf, linesOf, joined, joined, hconcat, hcs, joinLines_concat hclosed]

end EnvFile
end ServiceKit
