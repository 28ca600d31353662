import LoxTokens.Text.Cluster.Role

/-!
# Clusters

A reader sees some characters as one: a letter with its accents, a syllable, a flag, joined
pictures or consonants. Such a cluster is what is taken back at once. A text is cut into clusters
from its start; whether a character stays in a cluster depends on the characters that are in it
already.
-/

namespace LoxTokens.Text

/-- Consonants are joined by a linker, among marks. The roles come latest first. -/
def endsInLink (roles : List Role) : Bool :=
  (roles.takeWhile Role.isBetweenConsonants).contains .linker &&
    (roles.dropWhile Role.isBetweenConsonants).head? == some .consonant

/-- Pictures are joined by a joiner, before which the first one may have marks. The roles come
latest first. -/
def endsInJoin : List Role → Bool
  | .joiner :: earlier => (earlier.dropWhile Role.isMark).head? == some .pictograph
  | _ => false

/-- One half of the name of a region waits for the other. The roles come latest first. -/
def endsInHalf (roles : List Role) : Bool :=
  (roles.takeWhile (· == .regional)).length % 2 == 1

/-- A character stays in a cluster. The roles of those in it come latest first. -/
def stays : List Role → Role → Bool
  | [], _ => false
  | last :: earlier, r =>
    if last.isApart || r.isApart then last == .carriageReturn && r == .lineFeed
    else if r.attaches || last == .prepended || last.continuesSyllable r then true
    else match r with
      | .consonant => endsInLink (last :: earlier)
      | .pictograph => endsInJoin (last :: earlier)
      | .regional => endsInHalf (last :: earlier)
      | _ => false

/-- The clusters of a text, given the characters of the first one that are known already and their
roles, latest first. -/
def clustersAfter (held : List Char) (roles : List Role) : List Char → List (List Char)
  | [] => [held.reverse]
  | c :: rest =>
    let role := Role.ofChar c
    if stays roles role then clustersAfter (c :: held) (role :: roles) rest
    else held.reverse :: clustersAfter [c] [role] rest

/-- The clusters of a text. -/
def clusters : List Char → List (List Char)
  | [] => []
  | c :: rest => clustersAfter [c] [Role.ofChar c] rest

end LoxTokens.Text
