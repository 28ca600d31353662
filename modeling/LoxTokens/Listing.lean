import LoxTokens.Config.Basic
import LoxTokens.Failure
import LoxTokens.Sink
import LoxTokens.Token.Entry

/-!
# Listings

A listing shows tokens one after another: as entries, one behind the other and each ended by a
newline, or as a JSON array with a newline behind it. That newline does not belong to the
encoding, so where it does not fit the failure is one of writing.
-/

namespace LoxTokens.Listing

/-- The tokens that are shown. -/
def shown (c : Config) (ts : List Token) : List Token := ts.filter (c.showEof || !·.isEof)

/-- Entries, each ended by a newline. -/
def entries (ts : List Token) : List Char := ts.flatMap fun t => t.entry.toList ++ ['\n']

/-- A JSON array of records. -/
def array (ts : List Token) : List Char := Json.array (ts.map Token.record)

/-- The whole listing. -/
def text (c : Config) (ts : List Token) : List Char :=
  match c.format with
  | .text => entries (shown c ts)
  | .json => array (shown c ts) ++ ['\n']

/-- Write a listing, part by part. -/
def write (c : Config) (ts : List Token) (out : Sink) : Sink × Option Failure :=
  match c.format with
  | .text =>
    let (out, cause) := out.writeAll ((shown c ts).flatMap Token.parts)
    (out, cause.map .transfer)
  | .json =>
    match out.writeAll (Json.arrayParts ((shown c ts).map Token.record)) with
    | (out, some cause) => (out, some (.encoding cause))
    | (out, none) =>
      let (out, cause) := out.write ['\n']
      (out, cause.map .transfer)

theorem writeAll_parts (ts : List Token) (out : Sink) :
    out.writeAll (ts.flatMap Token.parts) = out.write (entries ts) :=
  Sink.writeAll_flatMap Token.flatten_parts out ts

theorem writeAll_arrayParts (ts : List Token) (out : Sink) :
    out.writeAll (Json.arrayParts (ts.map Token.record)) = out.write (array ts) := by
  rw [Sink.writeAll_eq_write, Json.flatten_arrayParts, array]

/-- A sink without a limit takes the whole listing. -/
theorem write_of_unlimited {out : Sink} (h : out.capacity = .unlimited) (c : Config)
    (ts : List Token) : write c ts out = (out.take (Utf8.encode (text c ts)), none) := by
  unfold write text
  simp only [writeAll_parts, writeAll_arrayParts]
  cases c.format with
  | text => simp only [Sink.write_of_unlimited h, Option.map_none]
  | json =>
    have hrest (bytes : List UInt8) : (out.take bytes).capacity = .unlimited := by
      rw [Sink.capacity_take, h]
    simp only [Sink.write_of_unlimited h, Sink.write_of_unlimited (hrest _), Sink.take_take,
      Utf8.encode_append, Option.map_none]

end LoxTokens.Listing
