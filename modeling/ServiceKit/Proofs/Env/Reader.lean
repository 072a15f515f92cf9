import ServiceKit.Env.Reader
import ServiceKit.Proofs.Number.Numeral
import ServiceKit.Proofs.Text.Utf8

/-!
# Variables that may be left out

A reader with a default gives what the bytes of the variable mean, the default where it is not set.
What does not mean anything becomes an error that shows the variable and its bytes as text.
-/

namespace ServiceKit

namespace Numeral

/-- A text is a natural number that is not too large. -/
def NaturalUpTo (greatest : Nat) (cs : List Char) (n : Nat) : Prop :=
  Natural cs n ∧ n ≤ greatest

end Numeral

theorem mapError_eq_ok_iff {α ε ε' : Type} {f : ε → ε'} {result : Except ε α} {value : α} :
    result.mapError f = .ok value ↔ result = .ok value := by
  cases result with
  | ok a =>
      change Except.ok a = Except.ok value ↔ _
      rw [Except.ok.injEq, Except.ok.injEq]
  | error e => exact iff_of_false nofun nofun

namespace Reading

variable {α : Type}

/-- A reading reads exactly the texts that have a meaning, as what they mean. -/
def Reads (read : Reading α) (means : List Char → α → Prop) : Prop :=
  ∀ cs value, read (String.ofList cs) = .ok value ↔ means cs value

/-- A text is one of the two words for a truth value. -/
inductive Flag : List Char → Bool → Prop where
  | yes : Flag "true".toList true
  | no : Flag "false".toList false

theorem flag_reads : flag.Reads Flag := by
  intro cs value
  constructor
  · intro h
    unfold flag at h
    split at h
    next htrue =>
      cases h
      rw [← String.toList_ofList (l := cs), htrue]
      exact .yes
    next =>
      split at h
      next hfalse =>
        cases h
        rw [← String.toList_ofList (l := cs), hfalse]
        exact .no
      next => contradiction
  · rintro (_ | _) <;> rw [String.ofList_toList] <;> rfl

/-- Without negative numbers, integers are the natural numbers of the range. -/
theorem integer_reads {range : IntRange} {greatest : Nat} (hrange : range.hasNegative = false)
    (hgreatest : range.greatest = greatest) :
    (integer range).Reads fun cs value =>
      ∃ n : Nat, Numeral.NaturalUpTo greatest cs n ∧ (n : Int) = value := by
  intro cs value
  have hread : integer range (String.ofList cs) = .ok value ↔
      Numeral.read range cs = .ok value := by
    rw [integer, mapError_eq_ok_iff, String.toList_ofList]
  rw [hread, Numeral.read_eq_ok_iff hrange, hgreatest]
  refine exists_congr fun n => ?_
  rw [Numeral.NaturalUpTo]
  constructor
  · rintro ⟨hn, rfl, hle⟩
    exact ⟨⟨hn, Int.ofNat_le.mp hle⟩, rfl⟩
  · rintro ⟨⟨hn, hle⟩, rfl⟩
    exact ⟨hn, rfl, Int.ofNat_le.mpr hle⟩

end Reading

namespace Environment

variable {α : Type} {env : Environment} {name : String}

/-- Bytes mean what the text means that they are the UTF-8 of. -/
def Strict (means : List Char → α → Prop) (bytes : List UInt8) (value : α) : Prop :=
  ∃ cs, Text.Utf8.encode cs = bytes ∧ means cs value

/-- Bytes are shown as a text, broken or not. -/
def Lossy (bytes : List UInt8) (s : String) : Prop :=
  lossy bytes = s

/-- A variable gives what its bytes mean, and a default if it is not set. -/
inductive Gives (env : Environment) (means : List UInt8 → α → Prop) (name : String)
    (default : α) : α → Prop where
  | unset (hget : env.get? name = none) : Gives env means name default default
  | set {bytes : List UInt8} {value : α} (hget : env.get? name = some bytes)
      (hmeans : means bytes value) : Gives env means name default value

/-- An error shows a variable that is set, with its bytes as text and some reason. -/
inductive Blames (env : Environment) (name : String) : ServiceError → Prop where
  | invalid {bytes : List UInt8} (hget : env.get? name = some bytes) (reason : String) :
      Blames env name (.invalidVariable name (lossy bytes) reason)

theorem gives_iff_of_unset {means : List UInt8 → α → Prop} {default value : α}
    (hget : env.get? name = none) : env.Gives means name default value ↔ default = value := by
  constructor
  · rintro (_ | ⟨hset, _⟩)
    · rfl
    · rw [hget] at hset
      contradiction
  · rintro rfl
    exact .unset hget

theorem gives_iff_of_set {means : List UInt8 → α → Prop} {default value : α}
    {bytes : List UInt8} (hget : env.get? name = some bytes) :
    env.Gives means name default value ↔ means bytes value := by
  constructor
  · rintro (hunset | ⟨hset, hmeans⟩)
    · rw [hget] at hunset
      contradiction
    · rw [hget] at hset
      cases hset
      exact hmeans
  · exact .set hget

theorem textOr_eq_iff {fallback s : String} :
    env.textOr name fallback = s ↔ env.Gives Lossy name fallback s := by
  rw [textOr]
  cases hget : env.get? name with
  | none => rw [gives_iff_of_unset hget]
  | some bytes => rw [gives_iff_of_set hget, Lossy]

theorem textOr_congr {other : Environment} {fallback : String}
    (hget : other.get? name = env.get? name) :
    other.textOr name fallback = env.textOr name fallback := by
  rw [textOr, hget, textOr]

section Typed

variable {read : Reading α} {means : List Char → α → Prop} {default value : α}

theorem readOr_of_unset (hget : env.get? name = none) :
    env.readOr read name default = .ok default := by
  unfold readOr text?
  rw [hget]
  rfl

theorem readOr_of_text {cs : List Char} (hget : env.get? name = some (Text.Utf8.encode cs)) :
    env.readOr read name default = readValue read name (String.ofList cs) := by
  have hdecode : Text.Utf8.decode? (Text.Utf8.encode cs) = some cs :=
    Text.Utf8.decode?_eq_some_iff.mpr rfl
  unfold readOr text?
  simp only [hget, hdecode]
  rfl

theorem readOr_of_broken {bytes : List UInt8} (hget : env.get? name = some bytes)
    (hbroken : Text.Utf8.decode? bytes = none) :
    env.readOr read name default = .error (.invalidVariable name (lossy bytes) notUnicode) := by
  unfold readOr text?
  simp only [hget, hbroken]
  rfl

theorem lossy_encode (cs : List Char) : lossy (Text.Utf8.encode cs) = String.ofList cs := by
  rw [lossy, Text.Utf8.decodeLossy_encode]

theorem strict_encode_iff {cs : List Char} :
    Strict means (Text.Utf8.encode cs) value ↔ means cs value := by
  constructor
  · rintro ⟨cs', hencode, hmeans⟩
    rwa [← Text.Utf8.encode_inj.mp hencode]
  · exact fun hmeans => ⟨cs, rfl, hmeans⟩

/-- What a variable gives as the image of something simpler. -/
theorem gives_image_iff {β : Type} {f : α → β} {image : β} (default : α) :
    env.Gives (Strict fun cs b => ∃ a, means cs a ∧ f a = b) name (f default) image ↔
      ∃ a, env.Gives (Strict means) name default a ∧ f a = image := by
  constructor
  · rintro (hget | ⟨hget, cs, hencode, a, hmeans, ha⟩)
    · exact ⟨default, .unset hget, rfl⟩
    · exact ⟨a, .set hget ⟨cs, hencode, hmeans⟩, ha⟩
  · rintro ⟨a, hget | ⟨hget, cs, hencode, hmeans⟩, rfl⟩
    · exact .unset hget
    · exact .set hget ⟨cs, hencode, a, hmeans, rfl⟩

theorem not_strict_of_broken {bytes : List UInt8} (hbroken : Text.Utf8.decode? bytes = none) :
    ¬ Strict means bytes value := by
  rintro ⟨cs, hencode, -⟩
  rw [← Text.Utf8.decode?_eq_some_iff, hbroken] at hencode
  contradiction

theorem readOr_congr {other : Environment} (hget : other.get? name = env.get? name) :
    other.readOr read name default = env.readOr read name default := by
  rw [readOr, text?, hget, readOr, text?]

/-- A reader with a default succeeds exactly with what the variable gives. -/
theorem readOr_eq_ok_iff (hread : read.Reads means) :
    env.readOr read name default = .ok value ↔ env.Gives (Strict means) name default value := by
  cases hget : env.get? name with
  | none => rw [readOr_of_unset hget, gives_iff_of_unset hget, Except.ok.injEq]
  | some bytes =>
      rw [gives_iff_of_set hget]
      cases hdecode : Text.Utf8.decode? bytes with
      | none =>
          rw [readOr_of_broken hget hdecode]
          exact iff_of_false nofun (not_strict_of_broken hdecode)
      | some cs =>
          obtain rfl := Text.Utf8.decode?_eq_some_iff.mp hdecode
          rw [readOr_of_text hget, strict_encode_iff, ← hread, readValue, mapError_eq_ok_iff]

theorem blames_of_readOr {e : ServiceError} (h : env.readOr read name default = .error e) :
    env.Blames name e := by
  cases hget : env.get? name with
  | none =>
      rw [readOr_of_unset hget] at h
      contradiction
  | some bytes =>
      cases hdecode : Text.Utf8.decode? bytes with
      | none =>
          rw [readOr_of_broken hget hdecode] at h
          cases h
          exact .invalid hget _
      | some cs =>
          obtain rfl := Text.Utf8.decode?_eq_some_iff.mp hdecode
          rw [readOr_of_text hget, readValue] at h
          cases hread : read (String.ofList cs) with
          | ok value =>
              rw [hread] at h
              contradiction
          | error reason =>
              rw [hread] at h
              cases h
              rw [← lossy_encode]
              exact .invalid hget reason

/-- A variable is to blame where a reader with a default reads nothing. -/
theorem exists_blames_of_readOr (h : ∀ value, env.readOr read name default ≠ .ok value) :
    ∃ e, env.readOr read name default = .error e ∧ env.Blames name e := by
  cases hread : env.readOr read name default with
  | ok value => exact absurd hread (h value)
  | error e => exact ⟨e, rfl, blames_of_readOr hread⟩

end Typed

section Natural

variable {range : IntRange} {greatest : Nat}

/-- A reader of integers without a sign succeeds exactly with the number that the variable gives. -/
theorem readOr_integer_eq_ok_iff {value : Int} (hrange : range.hasNegative = false)
    (hgreatest : range.greatest = greatest) (default : Nat) :
    env.readOr (Reading.integer range) name (default : Int) = .ok value ↔
      ∃ n : Nat, env.Gives (Strict (Numeral.NaturalUpTo greatest)) name default n ∧
        (n : Int) = value :=
  (readOr_eq_ok_iff (Reading.integer_reads hrange hgreatest)).trans (gives_image_iff default)

theorem exists_blames_of_integer (hrange : range.hasNegative = false)
    (hgreatest : range.greatest = greatest) (default : Nat)
    (h : ¬ ∃ n, env.Gives (Strict (Numeral.NaturalUpTo greatest)) name default n) :
    ∃ e, env.readOr (Reading.integer range) name (default : Int) = .error e ∧
      env.Blames name e := by
  refine exists_blames_of_readOr fun value hread => ?_
  obtain ⟨n, hn, -⟩ := (readOr_integer_eq_ok_iff hrange hgreatest default).mp hread
  exact h ⟨n, hn⟩

end Natural

end Environment
end ServiceKit
