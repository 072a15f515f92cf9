import ServiceKit.Proofs.Env.Agreement
import ServiceKit.Proofs.Number.Integer

/-!
# Variables that hold integers

The readers of integers give the integer that the text of a variable denotes, if it lies in the
range.  Otherwise they show the text with the first problem in it.  Where zero is refused, every
spelling of it is.  An integer that is written into a variable is read from it.
-/

namespace ServiceKit
namespace Environment

open Numeral Text

variable {env : Environment} {name : String} {bytes : List UInt8} {range : IntRange}
  {result : Except ServiceError Int}

/-- What the bytes of a variable give as an integer of a range. -/
inductive GivesInteger (range : IntRange) (name : String) (bytes : List UInt8) :
    Except ServiceError Int → Prop where
  | value {cs : List Char} {value : Int} (hcs : Utf8.encode cs = bytes)
      (h : Denotes range cs value) (hin : range.Contains value) :
      GivesInteger range name bytes (.ok value)
  | problem {cs : List Char} {e : NumeralError} (hcs : Utf8.encode cs = bytes)
      (h : Problem range cs e) :
      GivesInteger range name bytes (.error (.invalidVariable name (String.ofList cs) e.message))
  | broken (h : ∀ cs, Utf8.encode cs ≠ bytes) :
      GivesInteger range name bytes (.error (.invalidVariable name (lossy bytes) notUnicode))

theorem givesInteger_encode_iff {cs : List Char} (hzero : range.Contains 0) :
    GivesInteger range name (Utf8.encode cs) result ↔
      readValue (Reading.integer range) name (String.ofList cs) = result := by
  have hread : readValue (Reading.integer range) name (String.ofList cs) =
      ((Numeral.read range cs).mapError NumeralError.message).mapError
        (.invalidVariable name (String.ofList cs)) := by
    rw [readValue, Reading.integer, String.toList_ofList]
  rw [hread]
  constructor
  · rintro (⟨hcs, h, hin⟩ | ⟨hcs, h⟩ | hbroken)
    · rw [Utf8.encode_inj.mp hcs] at h
      rw [(read_eq_ok_iff_denotes hzero).mpr ⟨h, hin⟩]
      rfl
    · obtain rfl := Utf8.encode_inj.mp hcs
      rw [(read_eq_error_iff hzero).mpr h]
      rfl
    · exact absurd rfl (hbroken cs)
  · rintro rfl
    cases h : Numeral.read range cs with
    | ok value =>
        obtain ⟨hdenotes, hin⟩ := (read_eq_ok_iff_denotes hzero).mp h
        exact .value rfl hdenotes hin
    | error e => exact .problem rfl ((read_eq_error_iff hzero).mp h)

theorem givesInteger_iff_of_broken (hbroken : Utf8.decode? bytes = none) :
    GivesInteger range name bytes result ↔
      .error (.invalidVariable name (lossy bytes) notUnicode) = result := by
  have hnone : ∀ cs, Utf8.encode cs ≠ bytes := by
    intro cs hcs
    rw [Utf8.decode?_eq_some_iff.mpr hcs] at hbroken
    contradiction
  constructor
  · rintro (⟨hcs, -, -⟩ | ⟨hcs, -⟩ | -)
    · exact absurd hcs (hnone _)
    · exact absurd hcs (hnone _)
    · rfl
  · rintro rfl
    exact .broken hnone

/-- An integer that must be set is what the bytes of the variable give. -/
theorem requireRead_integer_iff (hzero : range.Contains 0) (hget : env.get? name = some bytes) :
    env.requireRead (Reading.integer range) name = result ↔
      GivesInteger range name bytes result := by
  cases hdecode : Utf8.decode? bytes with
  | none => rw [requireRead_of_broken hget hdecode, givesInteger_iff_of_broken hdecode]
  | some cs =>
      obtain rfl := Utf8.decode?_eq_some_iff.mp hdecode
      rw [requireRead_of_text hget, givesInteger_encode_iff hzero]

theorem contains_zero_integers : integers.Contains 0 :=
  (IntRange.IsType.signed 64).contains_zero

theorem requireInt_iff (hget : env.get? name = some bytes) :
    env.requireInt name = result ↔ GivesInteger integers name bytes result :=
  requireRead_integer_iff contains_zero_integers hget

theorem requireInt_eq_missing_iff :
    env.requireInt name = .error (.missingVariable name) ↔ env.get? name = none := by
  constructor
  · intro h
    cases hget : env.get? name with
    | none => rfl
    | some bytes =>
        rw [requireInt_iff hget] at h
        cases h
  · exact requireRead_of_unset

theorem requireInt_eq_zero_iff : env.requireInt name = .ok 0 ↔
    ∃ cs, env.get? name = some (Utf8.encode cs) ∧ SpellsZero integers cs := by
  constructor
  · intro h
    cases hget : env.get? name with
    | none =>
        rw [requireInt_eq_missing_iff.mpr hget] at h
        contradiction
    | some bytes =>
        rw [requireInt_iff hget] at h
        cases h with
        | value hcs hdenotes hin =>
            exact ⟨_, congrArg some hcs.symm, denotes_zero_iff.mp hdenotes⟩
  · rintro ⟨cs, hget, hspells⟩
    rw [requireInt_iff hget]
    exact .value rfl (denotes_zero_iff.mpr hspells) contains_zero_integers

theorem requireIntNonZero_of_zero (h : env.requireInt name = .ok 0) :
    env.requireIntNonZero name = .error (.zeroVariable name) := by
  rw [requireIntNonZero, h]
  rfl

theorem requireIntNonZero_of_ne_zero (h : env.requireInt name ≠ .ok 0) :
    env.requireIntNonZero name = env.requireInt name := by
  rw [requireIntNonZero]
  cases hread : env.requireInt name with
  | error e => rfl
  | ok value =>
      have hvalue : value ≠ 0 := by
        rintro rfl
        exact h hread
      exact if_neg hvalue

/-! ## All readers of integers -/

/-- A variable is read as an integer of a type, and what was written into it is read back. -/
structure ReadsType (env : Environment) (name : String) (range : IntRange) : Prop where
  gives : ∀ bytes, env.get? name = some bytes → ∀ default result,
    env.readOr (Reading.integer range) name default = result ↔
      GivesInteger range name bytes result
  written : ∀ value, range.Contains value →
    env.get? name = some (Utf8.encode (write value)) → ∀ default,
      env.readOr (Reading.integer range) name default = .ok value

/-- A variable that must be set is read as an integer of 64 bits.  Where zero is refused, its
spellings are all that makes a difference. -/
structure ReadsInt (env : Environment) (name : String) : Prop where
  missing : env.requireInt name = .error (.missingVariable name) ↔ env.get? name = none
  gives : ∀ bytes, env.get? name = some bytes → ∀ result,
    env.requireInt name = result ↔ GivesInteger (.signed 64) name bytes result
  zero : env.requireIntNonZero name = .error (.zeroVariable name) ↔
    ∃ cs, env.get? name = some (Utf8.encode cs) ∧ SpellsZero (.signed 64) cs
  nonZero : (∀ cs, env.get? name = some (Utf8.encode cs) → ¬ SpellsZero (.signed 64) cs) →
    env.requireIntNonZero name = env.requireInt name
  ne_zero : ∀ value, env.requireIntNonZero name = .ok value → value ≠ 0
  written : ∀ value : Int, -9223372036854775808 ≤ value → value ≤ 9223372036854775807 →
    env.get? name = some (Utf8.encode (write value)) → env.requireInt name = .ok value

theorem readsType (env : Environment) (name : String) (hrange : range.IsType) :
    env.ReadsType name range where
  gives := by
    intro bytes hget default result
    rw [readOr_eq_requireRead hget, requireRead_integer_iff hrange.contains_zero hget]
  written := by
    intro value hin hget default
    rw [readOr_eq_requireRead hget, requireRead_integer_iff hrange.contains_zero hget]
    exact .value rfl (denotes_write hin) hin

theorem requireIntNonZero_eq_zero_iff :
    env.requireIntNonZero name = .error (.zeroVariable name) ↔ env.requireInt name = .ok 0 := by
  constructor
  · intro h
    by_cases hzero : env.requireInt name = .ok 0
    · exact hzero
    · rw [requireIntNonZero_of_ne_zero hzero] at h
      cases hget : env.get? name with
      | none =>
          rw [requireInt_eq_missing_iff.mpr hget] at h
          cases h
      | some bytes =>
          rw [requireInt_iff hget] at h
          cases h
  · exact requireIntNonZero_of_zero

theorem readsInt (env : Environment) (name : String) : env.ReadsInt name where
  missing := requireInt_eq_missing_iff
  gives := fun bytes hget result => requireInt_iff hget
  zero := requireIntNonZero_eq_zero_iff.trans requireInt_eq_zero_iff
  nonZero := by
    intro hspells
    apply requireIntNonZero_of_ne_zero
    rw [Ne, requireInt_eq_zero_iff]
    rintro ⟨cs, hget, hzero⟩
    exact hspells cs hget hzero
  ne_zero := by
    rintro value h rfl
    by_cases hzero : env.requireInt name = .ok 0
    · rw [requireIntNonZero_of_zero hzero] at h
      contradiction
    · rw [requireIntNonZero_of_ne_zero hzero] at h
      exact hzero h
  written := by
    intro value hleast hgreatest hget
    have hin : integers.Contains value := ⟨hleast, hgreatest⟩
    rw [requireInt_iff hget]
    exact .value rfl (denotes_write hin) hin

/-- Integers of every type are read as they are denoted, refused for their first problem, and read
back as they are written. -/
theorem integers_read (env : Environment) (name : String) :
    (∀ range, range.IsType → env.ReadsType name range) ∧ env.ReadsInt name :=
  ⟨fun _ hrange => readsType env name hrange, readsInt env name⟩

/-- The least integer, a number that is too large before it is ill-formed, and a zero with a
sign. -/
def extremes : Environment :=
  Variables.environment ⟨[("LEAST", Utf8.encode (write (-9223372036854775808))),
    ("WIDE", Utf8.encode "300x".toList), ("NONE", Utf8.encode "-0".toList)]⟩

theorem integers_read_extremes :
    extremes.requireInt "LEAST" = .ok (-9223372036854775808) ∧
      extremes.readOr (Reading.integer (.unsigned 8)) "WIDE" 7 =
        .error (.invalidVariable "WIDE" "300x" "number too large to fit in target type") ∧
      extremes.requireIntNonZero "NONE" = .error (.zeroVariable "NONE") := by
  refine ⟨?_, ?_, ?_⟩
  · exact (integers_read extremes "LEAST").2.written (-9223372036854775808) (by decide)
      (by decide) rfl
  · have hreads := (integers_read extremes "WIDE").1 (.unsigned 8) (.unsigned 8)
    have hfits : Fits (.unsigned 8) false ['3', '0'] :=
      ⟨by simp [IsDigit], by decide, by decide⟩
    have hsplits : Splits (.unsigned 8) "300x".toList false (['3', '0'] ++ '0' :: ['x']) :=
      .bare (by decide) (by decide)
    have hproblem : Problem (.unsigned 8) "300x".toList .tooLarge :=
      .tooLarge hsplits hfits ⟨by decide, by decide⟩ (by decide)
    exact (hreads.gives (Utf8.encode "300x".toList) rfl 7 _).mpr (.problem rfl hproblem)
  · exact (integers_read extremes "NONE").2.zero.mpr ⟨"-0".toList, rfl, true, 0, .minus rfl⟩

end Environment
end ServiceKit
