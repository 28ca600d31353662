import Mathlib.Data.List.Forall2
import LoxTokens.Listing
import LoxTokens.Proofs.Json.Decoded

/-!
# Tokens are read back from JSON

The JSON array that is written of any tokens decodes to one object for each of them, and the object
tells the tag, the text, the value and the line of its token (`write_array_decode`). Only the sign
and the kind of what is no finite number are lost.
-/

namespace LoxTokens

namespace Listing

/-- The members of an object show a token. -/
structure Shows (t : Token) (members : List (String × Json.Value)) : Prop where
  /-- There are no other members, and the value of a literal has one only if there is a value. -/
  names : members.map Prod.fst =
    ["type", "lexeme"] ++ (if t.literal.isSome then ["literal"] else []) ++ ["line"]
  /-- The tag of the kind. -/
  kind : members.lookup "type" = some (.string t.kind.name)
  /-- The text. -/
  lexeme : members.lookup "lexeme" = some (.string t.lexeme)
  /-- The value of a string. -/
  text : ∀ s, t.literal = some (.text s) → members.lookup "literal" = some (.string s)
  /-- The value of a number, unless it is not finite. -/
  number : ∀ x, t.literal = some (.number x) → members.lookup "literal" =
    some (if x.isNaN ∨ x.isInfinite then .null else .number (Json.numbers.write x).toList)
  /-- The line. -/
  line : (members.lookup "line").bind Json.Value.count? = some t.line

/-- What the record of a token denotes shows the token. -/
theorem shows_record (t : Token) : Shows t (t.record.map fun m => (m.1, m.2.value)) := by
  have hline : (some (Json.Scalar.count t.line).value).bind Json.Value.count? = some t.line :=
    Json.count?_number_toDigits t.line
  unfold Token.record
  cases h : t.literal with
  | none => exact ⟨by simp [h], rfl, rfl, by simp [h], by simp [h], hline⟩
  | some value =>
    cases value with
    | text s =>
      refine ⟨by simp [h], rfl, rfl, fun s' hs' => ?_, by simp [h], hline⟩
      obtain rfl : s = s' := by simpa [h] using hs'
      rfl
    | number x =>
      refine ⟨by simp [h], rfl, rfl, by simp [h], fun x' hx' => ?_, hline⟩
      obtain rfl : x = x' := by simpa [h] using hx'
      exact congrArg some (Json.Scalar.value_number x)

/-- The JSON array that is written of tokens is one value with a newline behind it, and it decodes
to one object for each token that is shown. -/
theorem write_array_decode (c : Config) (ts : List Token) :
    ∃ text objects,
      (write { c with format := .json } ts {}).1.accepted = Utf8.encode (text ++ ['\n']) ∧
      (write { c with format := .json } ts {}).2 = none ∧
      Json.decode? text = some (.array (objects.map .object)) ∧
      List.Forall₂ Shows (if c.showEof then ts else ts.filter (·.kind ≠ .eof)) objects := by
  have hshown : shown c ts = if c.showEof then ts else ts.filter (·.kind ≠ .eof) := by
    cases h : c.showEof <;> simp [shown, h, Token.isEof, Bool.beq_eq_decide_eq]
  refine ⟨array (shown c ts), (shown c ts).map fun t => t.record.map fun m => (m.1, m.2.value),
    ?_, ?_, ?_, ?_⟩
  · rw [write_of_unlimited rfl, Sink.accepted_take]
    rfl
  · rw [write_of_unlimited rfl]
  · rw [array, Json.decode?_array, List.map_map, List.map_map]
    rfl
  · rw [← hshown, List.forall₂_map_right_iff, List.forall₂_same]
    exact fun t _ => shows_record t

end Listing

end LoxTokens
