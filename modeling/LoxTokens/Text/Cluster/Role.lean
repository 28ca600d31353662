import LoxTokens.Text.Cluster.Ranges

/-!
# Roles in a cluster

What a character does to its neighbours. Every character has one role, and the printable characters
of ASCII leave their neighbours alone.
-/

namespace LoxTokens.Text

/-- How a character is shown together with its neighbours. -/
inductive Role where
  /-- The first half of the end of a line. -/
  | carriageReturn
  /-- The end of a line, or its second half. -/
  | lineFeed
  /-- Shown with nothing. -/
  | control
  /-- Shown with what is before it. -/
  | mark
  /-- A mark that joins consonants. -/
  | linker
  /-- A mark that joins pictures. -/
  | joiner
  /-- A mark that keeps consonants apart. -/
  | nonJoiner
  /-- Shown beside what is before it. -/
  | spacing
  /-- Shown before what is after it. -/
  | prepended
  /-- Starts a syllable. -/
  | leading
  /-- Stands in the middle of a syllable. -/
  | vowel
  /-- Ends a syllable. -/
  | trailing
  /-- A syllable that may get an end. -/
  | openSyllable
  /-- A syllable with an end. -/
  | closedSyllable
  /-- One half of the name of a region. -/
  | regional
  /-- A picture. -/
  | pictograph
  /-- A consonant that may be joined to another. -/
  | consonant
  /-- Anything else. -/
  | other
  deriving DecidableEq, Repr

namespace Role

/-- The role of a character. Of the whole syllables, which are in the order of their parts, every
twenty-eighth has no end. -/
def ofChar (c : Char) : Role :=
  if 0x20 ≤ c.toNat && c.toNat < 0x7F then other
  else if c = '\r' then carriageReturn
  else if c = '\n' then lineFeed
  else if within controlRanges c then control
  else if c = '\u200C' then nonJoiner
  else if c = '\u200D' then joiner
  else if within linkerRanges c then linker
  else if isMark c || within modifierRanges c then mark
  else if within spacingRanges c then spacing
  else if within prependedRanges c then prepended
  else if within consonantRanges c then consonant
  else if within pictographRanges c then pictograph
  else if within [regionalRange] c then regional
  else if within [syllableRange] c then
    if (c.toNat - syllableRange.1) % 28 = 0 then openSyllable else closedSyllable
  else if within leadingRanges c then leading
  else if within vowelRanges c then vowel
  else if within trailingRanges c then trailing
  else other

/-- Nothing is joined to the character on either side. -/
def isApart : Role → Bool
  | carriageReturn | lineFeed | control => true
  | _ => false

/-- The character belongs to what is before it. -/
def attaches : Role → Bool
  | mark | linker | joiner | nonJoiner | spacing => true
  | _ => false

/-- The character may stand between a picture and the joiner after it. -/
def isMark : Role → Bool
  | mark | linker | nonJoiner => true
  | _ => false

/-- The character may stand between two consonants that are joined. -/
def isBetweenConsonants : Role → Bool
  | mark | linker | joiner => true
  | _ => false

/-- The second part follows the first in a syllable. -/
def continuesSyllable : Role → Role → Bool
  | leading, leading | leading, vowel | leading, openSyllable | leading, closedSyllable => true
  | openSyllable, vowel | openSyllable, trailing | vowel, vowel | vowel, trailing => true
  | closedSyllable, trailing | trailing, trailing => true
  | _, _ => false

end Role

end LoxTokens.Text
