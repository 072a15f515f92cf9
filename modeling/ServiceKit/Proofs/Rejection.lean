import Mathlib.Logic.Function.Basic
import ServiceKit.Proofs.Base64Url.Language
import ServiceKit.Proofs.Env.Agreement
import ServiceKit.Proofs.Logging.Names
import ServiceKit.Proofs.Text.Quoted

/-!
# Showing what is rejected

The messages for a variable that cannot be read, for a level and for a key type that nobody knows
show the rejected text between quotes.  From the message the text can be told exactly, and what
stands between the quotes stays on one line.
-/

namespace ServiceKit

/-- A message shows a text: it differs from text to text only in what stands between quotes, all of
which shows on one line, and no two texts have the same message. -/
structure ShowsItsText (message : String → String) : Prop where
  quotes : ∃ before after, ∀ s, message s = before ++ Text.quoted s ++ after
  quoted : ∀ s, ∀ c ∈ (Text.quoted s).toList, Text.Shows c
  injective : Function.Injective message

theorem showsItsText_of_quotes {message : String → String} (before after : String)
    (h : ∀ s, message s = before ++ Text.quoted s ++ after) : ShowsItsText message where
  quotes := ⟨before, after, h⟩
  quoted := fun _ _ => Text.shows_of_mem_quoted
  injective := by
    intro s t heq
    simp only [h, String.append_assoc, String.append_right_inj] at heq
    exact (Text.quoted_append_inj heq).1

/-- A reading knows some texts and refuses all others, with an error whose message shows the
text. -/
structure RefusesUnknown (read : String → Except ServiceError α) (IsKnown : String → Prop) :
    Prop where
  known : ∀ s, IsKnown s → ∃ a, read s = .ok a
  unknown : ∃ message, ShowsItsText message ∧
    ∀ s, ¬ IsKnown s → ∃ e, read s = .error e ∧ e.message = message s

/-! ## Variables -/

namespace ServiceError

theorem message_invalidVariable (name value reason : String) :
    (invalidVariable name value reason).message =
      "Environment variable " ++ name ++ " has invalid value " ++ Text.quoted value ++ ": " ++
        reason :=
  rfl

theorem message_invalidConfig (detail : String) :
    (invalidConfig detail).message = "Invalid configuration: " ++ detail :=
  rfl

theorem showsItsText_invalidVariable (name reason : String) :
    ShowsItsText fun value => (invalidVariable name value reason).message := by
  have hquotes : ∀ value, (invalidVariable name value reason).message =
      "Environment variable " ++ name ++ " has invalid value " ++ Text.quoted value ++
        (": " ++ reason) := by
    intro value
    rw [message_invalidVariable, String.append_assoc]
  exact showsItsText_of_quotes _ _ hquotes

/-- Not even another reason makes up for another value. -/
theorem message_invalidVariable_injective (name : String) :
    Function.Injective2 fun value reason => (invalidVariable name value reason).message := by
  intro value other reason why heq
  simp only [message_invalidVariable, String.append_assoc, String.append_right_inj] at heq
  obtain ⟨hvalue, hreason⟩ := Text.quoted_append_inj heq
  exact ⟨hvalue, (String.append_right_inj _).mp hreason⟩

theorem showsItsText_invalidConfig (detail : String) :
    ShowsItsText fun s => (invalidConfig (detail ++ Text.quoted s)).message := by
  have hquotes : ∀ s, (invalidConfig (detail ++ Text.quoted s)).message =
      "Invalid configuration: " ++ detail ++ Text.quoted s ++ "" := by
    intro s
    rw [message_invalidConfig, String.append_empty, String.append_assoc]
  exact showsItsText_of_quotes _ _ hquotes

end ServiceError

theorem Environment.readValue_eq_error_iff {read : Reading α} {name value : String}
    {e : ServiceError} : readValue read name value = .error e ↔
      ∃ reason, read value = .error reason ∧ e = .invalidVariable name value reason := by
  rw [readValue]
  cases read value with
  | ok a =>
      constructor
      · intro h
        cases h
      · rintro ⟨_, hread, -⟩
        cases hread
  | error reason =>
      change Except.error (ServiceError.invalidVariable name value reason) = .error e ↔ _
      rw [Except.error.injEq]
      constructor
      · rintro rfl
        exact ⟨reason, rfl, rfl⟩
      · rintro ⟨_, hread, rfl⟩
        cases hread
        rfl

/-! ## Levels and key types -/

theorem Logging.Level.refusesUnknown_read : RefusesUnknown read IsName where
  known := by
    intro s hname
    obtain ⟨level, hlevel⟩ := hname
    refine ⟨level, ?_⟩
    rw [read, ofName?_eq_some_iff.mpr hlevel]
  unknown := by
    refine ⟨_, ServiceError.showsItsText_invalidConfig "unknown log level ", fun s hname => ?_⟩
    refine ⟨.invalidConfig ("unknown log level " ++ Text.quoted s), ?_, rfl⟩
    rw [read, ofName?_eq_none_iff.mpr hname]

theorem KeyType.refusesUnknown_read : RefusesUnknown read fun s => ∃ type : KeyType, s = type.name
    where
  known := by
    rintro _ ⟨type, rfl⟩
    refine ⟨type, ?_⟩
    rw [read, Base64Url.ofName?_eq_some_iff.mpr rfl]
  unknown := by
    refine ⟨_, ServiceError.showsItsText_invalidConfig "unknown key type ", fun s hname => ?_⟩
    refine ⟨.invalidConfig ("unknown key type " ++ Text.quoted s), ?_, rfl⟩
    have hnone : KeyType.ofName? s = none := by
      refine Option.eq_none_iff_forall_ne_some.mpr fun type htype => hname ⟨type, ?_⟩
      exact Base64Url.ofName?_eq_some_iff.mp htype
    rw [read, hnone]

/-! ## All rejections -/

/-- A variable that cannot be read, an unknown level and an unknown key type are refused with the
text in the message, which tells it apart from every other text without leaving the line. -/
theorem rejections_shown :
    (∀ name reason, ShowsItsText fun value =>
      (ServiceError.invalidVariable name value reason).message) ∧
    (∀ name, Function.Injective2 fun value reason =>
      (ServiceError.invalidVariable name value reason).message) ∧
    (∀ (α : Type) (read : Reading α) (name value : String) (e : ServiceError),
      Environment.readValue read name value = .error e ↔
        ∃ reason, read value = .error reason ∧ e = .invalidVariable name value reason) ∧
    RefusesUnknown Logging.Level.read Logging.Level.IsName ∧
    RefusesUnknown KeyType.read fun s => ∃ type : KeyType, s = type.name :=
  ⟨ServiceError.showsItsText_invalidVariable, ServiceError.message_invalidVariable_injective,
    fun _ _ _ _ _ => Environment.readValue_eq_error_iff, Logging.Level.refusesUnknown_read,
    KeyType.refusesUnknown_read⟩

example : (ServiceError.invalidVariable "PORT" "80\n" "invalid digit found in string").message =
    "Environment variable PORT has invalid value \"80\\n\": invalid digit found in string" := by
  decide +kernel

end ServiceKit
