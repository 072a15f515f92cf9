import Mathlib.Data.List.TakeWhile
import ServiceKit.Proofs.Configuration
import ServiceKit.Proofs.Env.Lines

/-!
# Filling in an environment from a file

A file gives a variable the value of its first assignment before the first malformed line, unless
the variable is set to text already.  The configuration of a process is read from what is there
then.  Only a value with the zero character cannot be set, and stops the process.
-/

namespace ServiceKit

open Text

namespace Environment

/-- A variable is set, to the bytes of a text. -/
def HoldsText (env : Environment) (name : String) : Prop :=
  ∃ cs, env.get? name = some (Utf8.encode cs)

theorem holdsText_iff {env : Environment} {name : String} :
    env.HoldsText name ↔ (env.get? name).any fun bytes => (Utf8.decode? bytes).isSome := by
  rw [HoldsText]
  cases env.get? name with
  | none => simp
  | some bytes =>
      rw [Option.any_some, Option.isSome_iff_exists]
      refine exists_congr fun cs => ?_
      rw [Utf8.decode?_eq_some_iff, Option.some.injEq, eq_comm]

instance (env : Environment) (name : String) : Decidable (env.HoldsText name) :=
  decidable_of_iff' _ holdsText_iff

end Environment

namespace EnvFile

/-- The first assignment to a variable in front of the first malformed line. -/
def FirstAssigned (ls : List Line) (key : String) (value : List Char) : Prop :=
  ∃ before after, ls = before ++ .assignment key value :: after ∧
    .malformed ∉ before ∧ ∀ other, .assignment key other ∉ before

variable {ls ms : List Line} {key : String} {value : List Char}

/-! ## Assignments -/

theorem assignments_append (h : .malformed ∉ ls) (ms : List Line) :
    assignments (ls ++ ms) = assignments ls ++ assignments ms := by
  induction ls with
  | nil => rfl
  | cons l ls ih =>
      rw [List.mem_cons, not_or] at h
      have hrest := ih h.2
      cases l with
      | blank => exact hrest
      | assignment key value => exact congrArg (List.cons (key, value)) hrest
      | malformed => exact absurd rfl h.1

theorem assignments_append_of_mem (h : .malformed ∈ ls) (ms : List Line) :
    assignments (ls ++ ms) = assignments ls := by
  induction ls with
  | nil => contradiction
  | cons l ls ih =>
      cases l with
      | blank => exact ih ((List.mem_cons.mp h).resolve_left nofun)
      | assignment key value =>
          exact congrArg (List.cons (key, value)) (ih ((List.mem_cons.mp h).resolve_left nofun))
      | malformed => rfl

theorem mem_assignments (hclean : .malformed ∉ ls) (h : .assignment key value ∈ ls) :
    (key, value) ∈ assignments ls := by
  induction ls with
  | nil => contradiction
  | cons l ls ih =>
      rw [List.mem_cons, not_or] at hclean
      cases l with
      | blank => exact ih hclean.2 ((List.mem_cons.mp h).resolve_left nofun)
      | assignment key' value' =>
          rw [assignments, List.mem_cons]
          rcases List.mem_cons.mp h with heq | h
          · cases heq
            exact .inl rfl
          · exact .inr (ih hclean.2 h)
      | malformed => exact absurd rfl hclean.1

theorem firstAssigned_cons {l : Line} : FirstAssigned (l :: ls) key value ↔
    l = .assignment key value ∨
      l ≠ .malformed ∧ (∀ other, l ≠ .assignment key other) ∧ FirstAssigned ls key value := by
  constructor
  · rintro ⟨before, after, heq, hclean, hfirst⟩
    cases before with
    | nil => exact .inl (List.cons.inj heq).1
    | cons first before =>
        obtain ⟨rfl, rfl⟩ := List.cons.inj heq
        simp only [List.mem_cons, not_or] at hclean hfirst
        exact .inr ⟨Ne.symm hclean.1, fun other => Ne.symm (hfirst other).1, before, after, rfl,
          hclean.2, fun other => (hfirst other).2⟩
  · rintro (rfl | ⟨hline, hother, before, after, rfl, hclean, hfirst⟩)
    · exact ⟨[], ls, rfl, List.not_mem_nil, fun _ => List.not_mem_nil⟩
    · refine ⟨l :: before, after, rfl, ?_, fun other => ?_⟩
      · exact List.not_mem_cons_of_ne_of_not_mem (Ne.symm hline) hclean
      · exact List.not_mem_cons_of_ne_of_not_mem (Ne.symm (hother other)) (hfirst other)

/-- The value that counts is the first one. -/
theorem lookup_assignments_eq_some_iff :
    (assignments ls).lookup key = some value ↔ FirstAssigned ls key value := by
  induction ls with
  | nil => simp [assignments, FirstAssigned]
  | cons l ls ih =>
      rw [firstAssigned_cons, ← ih]
      cases l with
      | blank => simp [assignments]
      | assignment key' value' =>
          rw [assignments, List.lookup_cons]
          by_cases hkey : key = key'
          · simp [hkey]
          · simp [beq_eq_false_iff_ne.mpr hkey, Ne.symm hkey]
      | malformed => simp [assignments]

/-! ## Keys -/

theorem continuesKey_of_readKey? {cs name rest : List Char} (h : readKey? cs = some (name, rest)) :
    ∀ c ∈ name, continuesKey c = true := by
  cases cs with
  | nil => contradiction
  | cons c cs =>
      rw [readKey?, Option.ite_none_right_eq_some, Option.some.injEq, Prod.mk.injEq] at h
      obtain ⟨-, rfl, -⟩ := h
      exact fun c hc => List.mem_takeWhile_imp hc

theorem eq_of_readAssignment {name rest : List Char}
    (h : readAssignment name rest = .assignment key value) : key = String.ofList name := by
  unfold readAssignment at h
  split at h
  · simp only at h
    split at h
    · exact (Line.assignment.inj h).1.symm
    · contradiction
  · contradiction

theorem exists_readKey?_of_read {line : List Char} (h : Line.read line = .assignment key value) :
    ∃ cs name rest, readKey? cs = some (name, rest) ∧ key = String.ofList name := by
  unfold Line.read at h
  simp only at h
  split at h
  · contradiction
  · split at h
    · contradiction
    next name rest hname =>
      split at h
      · split at h
        · contradiction
        next name rest hname => exact ⟨_, name, rest, hname, eq_of_readAssignment h⟩
      · exact ⟨_, name, rest, hname, eq_of_readAssignment h⟩

theorem not_mem_key {text : String} (h : .assignment key value ∈ lines text) :
    '=' ∉ key.toList := by
  obtain ⟨line, -, hline⟩ := List.mem_map.mp h
  cases line with
  | none => contradiction
  | some line =>
      obtain ⟨cs, name, rest, hname, rfl⟩ := exists_readKey?_of_read hline
      rw [String.toList_ofList]
      intro hequals
      have hcontinues := continuesKey_of_readKey? hname '=' hequals
      contradiction

end EnvFile

namespace Environment

open EnvFile

/-- A file would give a variable a value with the zero character, which no process can set. -/
def CannotFill (env : Environment) (ls : List Line) : Prop :=
  ∃ name value, ¬ env.HoldsText name ∧ FirstAssigned ls name value ∧ '\x00' ∈ value

/-- What is found after a file has been filled in: texts stay, what is assigned otherwise has the
value of its first assignment, and the rest stays as well. -/
structure Fills (env : Environment) (ls : List Line) (filled : Environment) : Prop where
  text : ∀ name, env.HoldsText name → filled.get? name = env.get? name
  assigned : ∀ name value, ¬ env.HoldsText name → FirstAssigned ls name value →
    filled.get? name = some (Utf8.encode value)
  unassigned : ∀ name, ¬ env.HoldsText name → (¬ ∃ value, FirstAssigned ls name value) →
    filled.get? name = env.get? name

/-- A variable is filled in from a list of assignments. -/
def fillIn (env : Environment) (entries : List (String × List Char)) :
    Environment where
  get? name :=
    if env.HoldsText name then env.get? name
    else ((entries.lookup name).map Utf8.encode).or (env.get? name)

variable {env other filled : Environment} {entries entries' : List (String × List Char)}
  {ls ms : List Line} {name : String}

theorem get?_fillIn_of_text (h : env.HoldsText name) :
    (env.fillIn entries).get? name = env.get? name :=
  if_pos h

theorem get?_fillIn_of_not_text (h : ¬ env.HoldsText name) :
    (env.fillIn entries).get? name =
      ((entries.lookup name).map Utf8.encode).or (env.get? name) :=
  if_neg h

theorem holdsText_congr (h : other.get? name = env.get? name) :
    other.HoldsText name ↔ env.HoldsText name := by
  rw [HoldsText, HoldsText, h]

theorem get?_fillIn_congr (h : other.get? name = env.get? name) :
    (other.fillIn entries).get? name = (env.fillIn entries).get? name := by
  by_cases htext : env.HoldsText name
  · rw [get?_fillIn_of_text htext, get?_fillIn_of_text ((holdsText_congr h).mpr htext), h]
  · rw [get?_fillIn_of_not_text htext, get?_fillIn_of_not_text (mt (holdsText_congr h).mp htext), h]

/-- Only variables without a text are looked up. -/
theorem fillIn_congr (h : ∀ name, ¬ env.HoldsText name →
    entries'.lookup name = entries.lookup name) : env.fillIn entries' = env.fillIn entries := by
  rw [fillIn, fillIn]
  congr 1
  funext name
  by_cases htext : env.HoldsText name
  · rw [if_pos htext, if_pos htext]
  · rw [if_neg htext, if_neg htext, h name htext]

theorem cannotFill_congr (h : ∀ name, ¬ env.HoldsText name →
    (assignments ms).lookup name = (assignments ls).lookup name) :
    env.CannotFill ms ↔ env.CannotFill ls := by
  refine exists_congr fun name => exists_congr fun value => and_congr_right fun htext => ?_
  rw [← lookup_assignments_eq_some_iff, ← lookup_assignments_eq_some_iff, h name htext]

theorem fills_fillIn (env : Environment) (ls : List Line) :
    env.Fills ls (env.fillIn (assignments ls)) where
  text := fun _ => get?_fillIn_of_text
  assigned := by
    intro name value htext hfirst
    rw [get?_fillIn_of_not_text htext, lookup_assignments_eq_some_iff.mpr hfirst]
    rfl
  unassigned := by
    intro name htext hnone
    have hlookup : (assignments ls).lookup name = none := by
      rw [Option.eq_none_iff_forall_ne_some]
      exact fun value hvalue => hnone ⟨value, lookup_assignments_eq_some_iff.mp hvalue⟩
    rw [get?_fillIn_of_not_text htext, hlookup]
    rfl

/-- What is found is determined. -/
theorem Fills.get?_eq (h : env.Fills ls filled) (name : String) :
    filled.get? name = (env.fillIn (assignments ls)).get? name := by
  have hfills := env.fills_fillIn ls
  by_cases htext : env.HoldsText name
  · rw [h.text name htext, hfills.text name htext]
  · by_cases hfirst : ∃ value, FirstAssigned ls name value
    · obtain ⟨value, hvalue⟩ := hfirst
      rw [h.assigned name value htext hvalue, hfills.assigned name value htext hvalue]
    · rw [h.unassigned name htext hfirst, hfills.unassigned name htext hfirst]

end Environment

namespace Variables

open EnvFile

variable {vars : Variables} {name : String} {entries : List (String × List Char)}

/-! ## Filling in -/

theorem hasText_iff : vars.hasText name = true ↔ vars.environment.HoldsText name := by
  rw [Environment.holdsText_iff]
  change _ ↔ (vars.get? name).any _ = true
  rw [hasText]
  cases vars.get? name <;> rfl

theorem hasText_congr {other : Variables} (h : other.get? name = vars.get? name) :
    other.hasText name = vars.hasText name := by
  rw [hasText, hasText, h]

theorem get?_set_self (vars : Variables) (name : String) (bytes : List UInt8) :
    (vars.set name bytes).get? name = some bytes := by
  rw [get?, set, List.lookup_cons_self]

theorem get?_set_of_ne {key : String} (h : name ≠ key) (vars : Variables) (bytes : List UInt8) :
    (vars.set key bytes).get? name = vars.get? name := by
  rw [get?, set, List.lookup_cons, beq_eq_false_iff_ne.mpr h, get?]

theorem fillIn?_eq_none_iff {key : String} {value : List Char} :
    vars.fillIn? (key, value) = none ↔ vars.hasText key = false ∧ '\x00' ∈ value := by
  unfold fillIn?
  cases htext : vars.hasText key <;> simp

/-- One assignment changes at most the variable that it is for, and makes it a text. -/
theorem get?_of_fillIn? {key : String} {value : List Char} {next : Variables}
    (h : vars.fillIn? (key, value) = some next) (name : String) :
    next.get? name =
      if name = key ∧ vars.hasText key = false then some (Utf8.encode value)
      else vars.get? name := by
  unfold fillIn? at h
  cases htext : vars.hasText key with
  | true =>
      simp only [htext, if_pos, Option.some.injEq] at h
      simp [h]
  | false =>
      rw [if_neg (by simp [htext]), Option.ite_none_left_eq_some, Option.some.injEq] at h
      obtain ⟨-, rfl⟩ := h
      by_cases hname : name = key
      · rw [if_pos ⟨hname, rfl⟩, hname, get?_set_self]
      · rw [if_neg fun hboth => hname hboth.1, get?_set_of_ne hname]

theorem hasText_of_fillIn? {key : String} {value : List Char} {next : Variables}
    (h : vars.fillIn? (key, value) = some next) (name : String) :
    next.hasText name = (name == key || vars.hasText name) := by
  have hget := get?_of_fillIn? h name
  by_cases hname : name = key
  · subst hname
    cases htext : vars.hasText name with
    | true => simp [hasText_congr (hget.trans (if_neg (by simp [htext]))), htext]
    | false =>
        rw [beq_self_eq_true, Bool.true_or]
        exact hasText_iff.mpr ⟨value, hget.trans (if_pos ⟨rfl, htext⟩)⟩
  · rw [hasText_congr (hget.trans (if_neg fun hboth => hname hboth.1)),
      beq_eq_false_iff_ne.mpr hname, Bool.false_or]

/-- Filling in stops at the first assignment of a variable that has no text, if at all: after that
one, the variable has a text. -/
theorem foldlM_fillIn?_eq_none_iff : entries.foldlM fillIn? vars = none ↔
    ∃ name value, vars.hasText name = false ∧ entries.lookup name = some value ∧
      '\x00' ∈ value := by
  induction entries generalizing vars with
  | nil => simp
  | cons entry entries ih =>
      obtain ⟨key, value⟩ := entry
      rw [List.foldlM_cons]
      cases hnext : vars.fillIn? (key, value) with
      | none =>
          obtain ⟨htext, hzero⟩ := fillIn?_eq_none_iff.mp hnext
          exact ⟨fun _ => ⟨key, value, htext, List.lookup_cons_self, hzero⟩, fun _ => rfl⟩
      | some next =>
          refine ih.trans (exists_congr fun name => exists_congr fun other => ?_)
          rw [hasText_of_fillIn? hnext, List.lookup_cons]
          by_cases hname : name = key
          · -- what is assigned now is not assigned again
            subst hname
            have hset : ¬ (vars.hasText name = false ∧ '\x00' ∈ value) := fun hboth => by
              rw [fillIn?_eq_none_iff.mpr hboth] at hnext
              contradiction
            simp only [beq_self_eq_true, Bool.true_or, Bool.true_eq_false, false_and,
              Option.some.injEq, false_iff]
            rintro ⟨htext, rfl, hzero⟩
            exact hset ⟨htext, hzero⟩
          · simp [beq_eq_false_iff_ne.mpr hname]

theorem get?_environment_fillIn (vars : Variables) (entries : List (String × List Char))
    (name : String) : (vars.environment.fillIn entries).get? name =
      if vars.hasText name then vars.get? name
      else ((entries.lookup name).map Utf8.encode).or (vars.get? name) := by
  simp only [hasText_iff]
  rfl

/-- One assignment after another, the first of a variable counts: it makes the variable a text. -/
theorem get?_of_foldlM_fillIn? {filled : Variables}
    (h : entries.foldlM fillIn? vars = some filled) (name : String) :
    filled.get? name = (vars.environment.fillIn entries).get? name := by
  rw [get?_environment_fillIn]
  induction entries generalizing vars with
  | nil =>
      rw [List.foldlM_nil] at h
      cases h
      simp
  | cons entry entries ih =>
      obtain ⟨key, value⟩ := entry
      rw [List.foldlM_cons] at h
      obtain ⟨next, hnext, hrest⟩ := Option.bind_eq_some_iff.mp h
      rw [ih hrest, hasText_of_fillIn? hnext, get?_of_fillIn? hnext, List.lookup_cons]
      by_cases hname : name = key
      · subst hname
        cases htext : vars.hasText name <;> simp
      · simp [beq_eq_false_iff_ne.mpr hname, hname]

/-! ## What a process finds -/

theorem find?_of_not_mem (h : '=' ∉ name.toList) : vars.find? name = vars.get? name := by
  have hnone : name.toList.dropWhile (· ≠ '=') = [] := by
    rw [List.dropWhile_eq_nil_iff]
    intro c hc
    refine decide_eq_true ?_
    rintro rfl
    exact h hc
  rw [find?, hnone]

theorem get?_ofProcess (h : isProcessName name = true) :
    vars.ofProcess.get? name = vars.get? name := by
  rw [get?, get?, ofProcess]
  induction vars.entries with
  | nil => rfl
  | cons entry entries ih =>
      by_cases hname : name = entry.1
      · rw [List.filter_cons_of_pos (by rwa [← hname]), List.lookup_cons, List.lookup_cons, ih]
      · rw [List.lookup_cons, beq_eq_false_iff_ne.mpr hname, ← ih, List.filter_cons]
        split
        · rw [List.lookup_cons, beq_eq_false_iff_ne.mpr hname]
        · rfl

theorem get?_processEnvironment_of_not_mem (h : '=' ∉ name.toList) :
    vars.processEnvironment.get? name = vars.ofProcess.get? name :=
  find?_of_not_mem h

/-- A name that a variable of a process can have is found under this name. -/
theorem get?_processEnvironment (h : isProcessName name = true) :
    vars.processEnvironment.get? name = vars.get? name := by
  have hequals : '=' ∉ name.toList := by
    simp only [isProcessName, Bool.and_eq_true] at h
    simpa using h.1.2
  exact (get?_processEnvironment_of_not_mem hequals).trans (get?_ofProcess h)

/-- A file stops the process just where it cannot be filled in: its keys are names that a process
finds under themselves. -/
theorem withFile?_eq_none_iff {file : EnvFile} : vars.ofProcess.withFile? file = none ↔
    vars.processEnvironment.CannotFill (lines file.text) := by
  refine foldlM_fillIn?_eq_none_iff.trans (exists_congr fun name => exists_congr fun value => ?_)
  rw [lookup_assignments_eq_some_iff, ← Bool.not_eq_true, hasText_iff]
  refine and_congr_left fun ⟨hfirst, _⟩ => not_congr ?_
  have hequals : '=' ∉ name.toList := by
    obtain ⟨before, after, hlines, -, -⟩ := hfirst
    have hmem : .assignment name value ∈ lines file.text := by
      rw [hlines]
      exact List.mem_append_right before List.mem_cons_self
    exact not_mem_key hmem
  exact (Environment.holdsText_congr (get?_processEnvironment_of_not_mem hequals)).symm

end Variables

namespace ServiceConfig

variable {vars : Variables} {file : EnvFile} {filled : Environment}

theorem isProcessName_of_mem {name : String} (h : name ∈ variableNames) :
    Variables.isProcessName name = true := by
  have hall : ∀ name ∈ variableNames, Variables.isProcessName name = true := by decide
  exact hall name h

theorem loadProcess_eq_none_iff : loadProcess vars (some file) = none ↔
    vars.processEnvironment.CannotFill (EnvFile.lines file.text) := by
  rw [loadProcess, Option.map_eq_none_iff, Variables.withFile?_eq_none_iff]

/-- A file makes no other difference to a configuration than by what it fills in. -/
theorem loadProcess_some (h : ¬ vars.processEnvironment.CannotFill (EnvFile.lines file.text)) :
    loadProcess vars (some file) = some
      (load (vars.processEnvironment.fillIn
        (EnvFile.assignments (EnvFile.lines file.text)))) := by
  rw [← Variables.withFile?_eq_none_iff] at h
  obtain ⟨filled, hfilled⟩ := Option.ne_none_iff_exists'.mp h
  rw [loadProcess, hfilled, Option.map_some]
  refine congrArg some (load_congr fun name hname => ?_)
  have hprocess := isProcessName_of_mem hname
  have hget : vars.ofProcess.environment.get? name = vars.processEnvironment.get? name :=
    (Variables.get?_ofProcess hprocess).trans (Variables.get?_processEnvironment hprocess).symm
  rw [Variables.get?_processEnvironment hprocess, Variables.get?_of_foldlM_fillIn? hfilled,
    Environment.get?_fillIn_congr hget]

theorem loadProcess_eq_load
    (hset : ¬ vars.processEnvironment.CannotFill (EnvFile.lines file.text))
    (h : vars.processEnvironment.Fills (EnvFile.lines file.text) filled) :
    loadProcess vars (some file) = some (load filled) := by
  rw [loadProcess_some hset]
  exact congrArg some (load_congr fun name _ => (h.get?_eq name).symm)

end ServiceConfig

end ServiceKit
