import ServiceKit.Token

/-!
# Counting and checking segments

A token has one segment more than it has dots.  A dot separates what stands before and behind it:
the segments of both are those of the whole, which is valid if both are.  Texts without dots are
therefore counted and checked one by one when dots are put between them, the empty ones and those
behind a bad one included.
-/

namespace ServiceKit
namespace DottedCheck

variable {s : String} {segments : List String}

theorem segmentIsValid_toList (s : String) :
    segmentIsValid s.toList = (Base64Url.decodedLength? s).isSome := by
  rw [segmentIsValid, Base64Url.decodedLength?, Option.isSome_map]

theorem ofText_eq (s : String) :
    ofText s = ⟨(Text.pieces '.' s.toList).length,
      (Text.pieces '.' s.toList).all segmentIsValid⟩ := rfl

theorem parts_ofText (s : String) : (ofText s).parts = s.toList.count '.' + 1 :=
  Text.length_pieces '.' s.toList

theorem pieces_append_dot (a b : String) :
    Text.pieces '.' (a ++ "." ++ b).toList =
      Text.pieces '.' a.toList ++ Text.pieces '.' b.toList := by
  have htext : (a ++ "." ++ b).toList = a.toList ++ '.' :: b.toList := by
    rw [String.toList_append, String.toList_append, List.append_assoc]
    rfl
  rw [htext, Text.pieces_append]

theorem ofText_append_dot (a b : String) :
    ofText (a ++ "." ++ b) =
      ⟨(ofText a).parts + (ofText b).parts, (ofText a).valid && (ofText b).valid⟩ := by
  rw [ofText_eq, ofText_eq a, ofText_eq b, pieces_append_dot, List.length_append,
    List.all_append]

/-- A text without dots is its own segment. -/
theorem ofText_of_not_mem (h : '.' ∉ s.toList) :
    ofText s = ⟨1, (Base64Url.decodedLength? s).isSome⟩ := by
  rw [ofText_eq, Text.pieces_eq_singleton h, List.length_singleton, List.all_cons, List.all_nil,
    Bool.and_true, segmentIsValid_toList]

theorem ofText_intercalate (hne : segments ≠ []) (hdot : ∀ s ∈ segments, '.' ∉ s.toList) :
    ofText (".".intercalate segments) =
      ⟨segments.length, segments.all fun s => (Base64Url.decodedLength? s).isSome⟩ := by
  induction segments with
  | nil => contradiction
  | cons s rest ih =>
      rw [List.forall_mem_cons] at hdot
      cases rest with
      | nil =>
          rw [String.intercalate_singleton, ofText_of_not_mem hdot.1, List.length_singleton,
            List.all_cons, List.all_nil, Bool.and_true]
      | cons t rest =>
          rw [String.intercalate_cons_cons, ofText_append_dot, ofText_of_not_mem hdot.1,
            ih (List.cons_ne_nil t rest) hdot.2, Nat.add_comm]
          rfl

/-- A check counts and checks the segments that dots are put between, counts the dots of any text,
and takes a text apart at any dot. -/
theorem ofText_checksSegments :
    (∀ segments : List String, segments ≠ [] → (∀ s ∈ segments, '.' ∉ s.toList) →
      (ofText (".".intercalate segments)).parts = segments.length ∧
        ((ofText (".".intercalate segments)).valid = true ↔
          ∀ s ∈ segments, (Base64Url.decodedLength? s).isSome = true)) ∧
    (∀ s : String, (ofText s).parts = 1 + s.toList.count '.') ∧
    ∀ a b : String,
      (ofText (a ++ "." ++ b)).parts = (ofText a).parts + (ofText b).parts ∧
        (ofText (a ++ "." ++ b)).valid = ((ofText a).valid && (ofText b).valid) := by
  refine ⟨?_, ?_, ?_⟩
  · intro segments hne hdot
    rw [ofText_intercalate hne hdot]
    exact ⟨rfl, List.all_eq_true⟩
  · intro s
    rw [parts_ofText, Nat.add_comm]
  · intro a b
    rw [ofText_append_dot]
    exact ⟨rfl, rfl⟩

/-- A single character is no segment, and the empty segments behind it are counted. -/
example : ofText "a.." = ⟨3, false⟩ := by cbv

end DottedCheck
end ServiceKit
