import ServiceKit.Proofs.Env.Reader

/-!
# Agreement of strict and lossy readers

All readers of a variable see the same text.  The lossy ones take it as it is; the strict ones take
it exactly where the bytes of the variable are its UTF-8, and otherwise refuse the variable with one
error that shows this text, whatever they would have read it as.
-/

namespace ServiceKit

open Text

namespace Environment

variable {α : Type} {env : Environment} {name : String} {bytes : List UInt8} {read : Reading α}

/-! ## A variable that is not set -/

theorem text?_of_unset (hget : env.get? name = none) : env.text? name = .ok none := by
  rw [text?, hget]

theorem require_of_unset (hget : env.get? name = none) :
    env.require name = .error (.missingVariable name) := by
  rw [require, text?_of_unset hget]
  rfl

theorem requireRead_of_unset (hget : env.get? name = none) :
    env.requireRead read name = .error (.missingVariable name) := by
  rw [requireRead, require_of_unset hget]
  rfl

/-! ## A variable that is set to a text -/

theorem text?_of_text {cs : List Char} (hget : env.get? name = some (Utf8.encode cs)) :
    env.text? name = .ok (some (String.ofList cs)) := by
  have hdecode : Utf8.decode? (Utf8.encode cs) = some cs := Utf8.decode?_eq_some_iff.mpr rfl
  rw [text?, hget]
  simp only [hdecode]

theorem require_of_text {cs : List Char} (hget : env.get? name = some (Utf8.encode cs)) :
    env.require name = .ok (String.ofList cs) := by
  rw [require, text?_of_text hget]
  rfl

theorem requireRead_of_text {cs : List Char} (hget : env.get? name = some (Utf8.encode cs)) :
    env.requireRead read name = readValue read name (String.ofList cs) := by
  rw [requireRead, require_of_text hget]
  rfl

/-! ## A variable that is set to broken bytes -/

theorem text?_of_broken (hget : env.get? name = some bytes) (hbroken : Utf8.decode? bytes = none) :
    env.text? name = .error (.invalidVariable name (lossy bytes) notUnicode) := by
  rw [text?, hget]
  simp only [hbroken]

theorem require_of_broken (hget : env.get? name = some bytes)
    (hbroken : Utf8.decode? bytes = none) :
    env.require name = .error (.invalidVariable name (lossy bytes) notUnicode) := by
  rw [require, text?_of_broken hget hbroken]
  rfl

theorem requireRead_of_broken (hget : env.get? name = some bytes)
    (hbroken : Utf8.decode? bytes = none) :
    env.requireRead read name = .error (.invalidVariable name (lossy bytes) notUnicode) := by
  rw [requireRead, require_of_broken hget hbroken]
  rfl

/-- Where a variable is set, a default makes no difference. -/
theorem readOr_eq_requireRead (hget : env.get? name = some bytes) (default : α) :
    env.readOr read name default = env.requireRead read name := by
  cases hdecode : Utf8.decode? bytes with
  | none => rw [readOr_of_broken hget hdecode, requireRead_of_broken hget hdecode]
  | some cs =>
      obtain rfl := Utf8.decode?_eq_some_iff.mp hdecode
      rw [readOr_of_text hget, requireRead_of_text hget]

/-! ## All readers -/

/-- Every strict reader refuses a variable with the same error. -/
structure Refuses (env : Environment) (name : String) (e : ServiceError) : Prop where
  require : env.require name = .error e
  requireInt : env.requireInt name = .error e
  requireIntNonZero : env.requireIntNonZero name = .error e
  requireDecimal : env.requireDecimal name = .error e
  requireDecimalNonZero : env.requireDecimalNonZero name = .error e
  readOr : ∀ {α : Type} (read : Reading α) (default : α), env.readOr read name default = .error e

/-- Every reader sees a text in the bytes of a variable. -/
structure Shows (env : Environment) (name : String) (bytes : List UInt8) (s : String) : Prop where
  textOr : ∀ fallback, env.textOr name fallback = s
  require : ∀ t, env.require name = .ok t ↔ Utf8.encode s.toList = bytes ∧ t = s
  refuses : Utf8.encode s.toList ≠ bytes →
    env.Refuses name (.invalidVariable name s "value is not valid unicode")
  list : env.list name = items s

/-- Every reader treats a variable as one that is not set. -/
structure Lacks (env : Environment) (name : String) : Prop where
  require : env.require name = .error (.missingVariable name)
  readOr : ∀ {α : Type} (read : Reading α) (default : α), env.readOr read name default = .ok default
  textOr : ∀ fallback, env.textOr name fallback = fallback
  list : env.list name = []

theorem refuses_of_broken (hget : env.get? name = some bytes)
    (hbroken : Utf8.decode? bytes = none) :
    env.Refuses name (.invalidVariable name (lossy bytes) notUnicode) where
  require := require_of_broken hget hbroken
  requireInt := requireRead_of_broken hget hbroken
  requireIntNonZero := by
    rw [requireIntNonZero, requireInt, requireRead_of_broken hget hbroken]
    rfl
  requireDecimal := requireRead_of_broken hget hbroken
  requireDecimalNonZero := by
    rw [requireDecimalNonZero, requireDecimal, requireRead_of_broken hget hbroken]
    rfl
  readOr := fun _ _ => readOr_of_broken hget hbroken

theorem lacks_of_unset (hget : env.get? name = none) : env.Lacks name where
  require := require_of_unset hget
  readOr := fun _ _ => readOr_of_unset hget
  textOr := fun fallback => by rw [textOr, hget]
  list := by rw [list, hget]

theorem require_eq_ok_iff {t : String} (hget : env.get? name = some bytes) :
    env.require name = .ok t ↔ Utf8.encode (lossy bytes).toList = bytes ∧ t = lossy bytes := by
  rw [lossy, String.toList_ofList]
  cases hdecode : Utf8.decode? bytes with
  | none =>
      rw [require_of_broken hget hdecode]
      refine iff_of_false (by simp) ?_
      rintro ⟨hencode, -⟩
      exact Utf8.decode?_eq_none_iff.mp hdecode hencode
  | some cs =>
      obtain rfl := Utf8.decode?_eq_some_iff.mp hdecode
      rw [require_of_text hget, Utf8.decodeLossy_encode, Except.ok.injEq, eq_comm]
      exact (and_iff_right rfl).symm

/-- The readers of a variable agree: they see one text in its bytes, or all find it not set. -/
theorem readers_agree (env : Environment) (name : String) :
    (∀ bytes, env.get? name = some bytes → ∃ s, env.Shows name bytes s) ∧
      (env.get? name = none → env.Lacks name) := by
  refine ⟨fun bytes hget => ⟨lossy bytes, ?_⟩, lacks_of_unset⟩
  have hlossy : (lossy bytes).toList = Utf8.decodeLossy bytes := String.toList_ofList
  refine ⟨fun fallback => by rw [textOr, hget], fun t => require_eq_ok_iff hget, ?_, ?_⟩
  · rw [hlossy, ← Utf8.decode?_eq_none_iff]
    exact refuses_of_broken hget
  · rw [list, hget]

/-- Two letters and a byte that begins no text. -/
def binary : Environment :=
  Variables.environment ⟨[("BINARY", [0x6f, 0x6b, 0xff])]⟩

theorem readers_agree_binary :
    binary.Refuses "BINARY" (.invalidVariable "BINARY" "ok\ufffd" "value is not valid unicode") ∧
      binary.list "BINARY" = ["ok\ufffd"] ∧ binary.Lacks "UNSET" := by
  obtain ⟨s, hs⟩ := (readers_agree binary "BINARY").1 [0x6f, 0x6b, 0xff] rfl
  have htext : s = "ok\ufffd" := by
    rw [← hs.textOr ""]
    decide +kernel
  subst htext
  refine ⟨hs.refuses (by decide), ?_, (readers_agree binary "UNSET").2 rfl⟩
  rw [hs.list]
  decide

end Environment
end ServiceKit
