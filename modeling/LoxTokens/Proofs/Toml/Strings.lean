import LoxTokens.Toml.Quoted
import LoxTokens.Proofs.Numerals
import LoxTokens.Proofs.Toml.Grammar

/-!
# Strings of settings files are read

A string between double quotes is read as the string it is a text of, each character from whatever
it is written as (`basicString_append`). What follows it must not be one more quote, for an empty
string would then open one of several lines (`string_append`).
-/

namespace LoxTokens.Toml

open Reader

variable {c : Char} {size : Nat} {text : List Char} {s : String}

theorem isPlain_of_not_isControl (h : ¬ IsControl c) : isPlain c = true := by
  unfold IsControl at h
  simp only [isPlain, Bool.or_eq_true, beq_iff_eq, Bool.and_eq_true, decide_eq_true_eq, bne_iff_ne]
  by_cases htab : c = '\t'
  · exact Or.inl htab
  · refine Or.inr ⟨Nat.le_of_not_lt fun hlt => h (Or.inl ⟨hlt, htab⟩), fun hdel => h (Or.inr hdel)⟩

/-! Every string can be written. -/

/-- A character written by its code point in eight digits. -/
def longEscape (c : Char) : List Char := '\\' :: 'U' :: (Nat.toDigits 16 c.toNat).leftpad 8 '0'

theorem charText_longEscape (c : Char) : CharText c (longEscape c) := by
  have hbound : c.val.toNat < 16 ^ 8 := by
    rcases c.valid with h | h <;> omega
  have hlength : (Nat.toDigits 16 c.toNat).length ≤ 8 :=
    (Nat.length_toDigits_le_iff (by decide) (by decide)).2 hbound
  have hsame : ∀ n < 16, (Nat.digitChar n).toLower = Nat.digitChar n := by decide
  have hlower : ∀ d ∈ (Nat.toDigits 16 c.toNat).leftpad 8 '0', d.toLower = d := by
    intro d hd
    rcases List.mem_append.1 hd with hzero | hdigit
    · rw [List.eq_of_mem_replicate hzero]
      rfl
    · obtain ⟨n, hn, rfl⟩ := exists_digitChar_of_mem_toDigits hdigit
      exact hsame n hn
  refine .eight ⟨?_, ?_⟩
  · rw [List.leftpad, List.length_append, List.length_replicate]
    omega
  · exact (List.map_congr_left hlower).trans (List.map_id _)

/-- Whatever characters a string has, it has a text. -/
theorem exists_stringText (s : String) : ∃ text, StringText s text := by
  refine ⟨_, s.toList.map fun c => (c, longEscape c), ?_, ?_, rfl⟩
  · intro p hp
    obtain ⟨c, -, rfl⟩ := List.mem_map.1 hp
    exact charText_longEscape c
  · rw [List.map_map]
    exact (List.map_id _).symm

/-- A string without anything to be escaped may be written as it is. -/
theorem stringText_of_plain (h : ∀ c ∈ s.toList, ¬ IsControl c ∧ c ≠ '"' ∧ c ≠ '\\') :
    StringText s ('"' :: (s.toList ++ ['"'])) := by
  refine ⟨s.toList.map fun c => (c, [c]), ?_, ?_, ?_⟩
  · intro p hp
    obtain ⟨c, hc, rfl⟩ := List.mem_map.1 hp
    obtain ⟨hcontrol, hquote, hbackslash⟩ := h c hc
    exact .plain hcontrol hquote hbackslash
  · rw [List.map_map]
    exact (List.map_id _).symm
  · rw [List.flatMap_map, List.flatMap_singleton']

/-! Strings are read. -/

/-- Every digit of a code point is one of the base sixteen. -/
theorem CodePointText.exists_digitChar (h : CodePointText size c text) :
    ∀ d ∈ text, ∃ n < 16, d.toLower = Nat.digitChar n := by
  intro d hd
  have hmem : d.toLower ∈ (Nat.toDigits 16 c.toNat).leftpad size '0' :=
    h.2 ▸ List.mem_map_of_mem hd
  rcases List.mem_append.1 hmem with hzero | hdigit
  · exact ⟨0, by decide, List.eq_of_mem_replicate hzero⟩
  · exact exists_digitChar_of_mem_toDigits hdigit

theorem CodePointText.numeralValue_eq (h : CodePointText size c text) :
    numeralValue 16 text = c.toNat := by
  rw [numeralValue_of_toLower h.exists_digitChar, h.2, numeralValue_leftpad,
    numeralValue_toDigits (by decide) (by decide)]

/-- A character is read from its code point. -/
theorem codePoint_append (h : CodePointText size c text) (rest : List Char) :
    codePoint size (text ++ rest) = some (c, rest) := by
  have hhex : ∀ d ∈ text, isHexDigit d = true := by
    intro d hd
    obtain ⟨n, hn, hlower⟩ := h.exists_digitChar d hd
    exact (digitValue_of_toLower hn hlower).1
  have hdigits := upTo_one_append hhex rest
  rw [h.1] at hdigits
  have hvalid : Nat.isValidChar c.toNat := c.valid
  rw [codePoint, bind_of_eq hdigits, bind_of_eq (check_of_eq (beq_iff_eq.2 h.1)),
    h.numeralValue_eq, bind_of_eq (check_of_eq (decide_eq_true hvalid)), Char.ofNat_toNat]
  rfl

/-- A character is read from what it is written as. -/
theorem basicChar_append (h : CharText c text) (rest : List Char) :
    basicChar (text ++ rest) = some (c, rest) := by
  cases h with
  | plain hcontrol hquote hbackslash =>
    refine orElse_of_eq (one_cons ?_) _
    simp only [Bool.and_eq_true, bne_iff_ne]
    exact ⟨⟨isPlain_of_not_isControl hcontrol, hquote⟩, hbackslash⟩
  | short h =>
    simp only [shortEscapes, List.mem_cons, Prod.mk.injEq, List.not_mem_nil, or_false] at h
    rcases h with ⟨rfl, rfl⟩ | ⟨rfl, rfl⟩ | ⟨rfl, rfl⟩ | ⟨rfl, rfl⟩ | ⟨rfl, rfl⟩ | ⟨rfl, rfl⟩ |
      ⟨rfl, rfl⟩ <;> rfl
  | four h => exact codePoint_append h rest
  | eight h => exact codePoint_append h rest

/-- No character is written as a quote alone. -/
theorem CharText.exists_cons (h : CharText c text) : ∃ d ds, text = d :: ds ∧ d ≠ '"' := by
  cases h with
  | plain hcontrol hquote hbackslash => exact ⟨c, [], rfl, hquote⟩
  | short | four | eight => exact ⟨'\\', _, rfl, by decide⟩

/-- A string is read up to its closing quote. -/
theorem basicString_append (h : StringText s text) (rest : List Char) :
    basicString (text ++ rest) = some (s.toList, rest) := by
  obtain ⟨parts, hparts, hs, rfl⟩ := h
  have hne : ∀ p ∈ parts, p.2 ≠ [] := by
    intro p hp
    obtain ⟨d, ds, hd, -⟩ := (hparts p hp).exists_cons
    rw [hd]
    exact List.cons_ne_nil d ds
  have hread : many basicChar (parts.flatMap Prod.snd ++ '"' :: rest) =
      some (parts.map Prod.fst, '"' :: rest) :=
    many_flatMap (fun _ => True) hne rfl trivial (fun _ _ _ => trivial)
      fun p hp tail _ => basicChar_append (hparts p hp) tail
  rw [hs, List.cons_append, List.append_assoc]
  exact seqLeft_of_eq ((seqRight_of_eq (char_cons '"') _).trans hread) (char_cons '"')

/-- A string of one line does not open with three quotes. -/
theorem StringText.not_spanning (h : StringText s text) {rest : List Char}
    (hrest : rest.head? ≠ some '"') :
    ¬ (String.ofList ['"', '"', '"']).toList <+: text ++ rest := by
  obtain ⟨parts, hparts, -, rfl⟩ := h
  rw [String.toList_ofList]
  rintro ⟨more, hmore⟩
  cases parts with
  | nil =>
    refine hrest ?_
    have hthird := congrArg (fun cs => (cs.drop 2).head?) hmore
    exact hthird.symm
  | cons p parts =>
    obtain ⟨d, ds, hd, hquote⟩ := (hparts p List.mem_cons_self).exists_cons
    refine hquote ?_
    have hsecond := congrArg (fun cs => (cs.drop 1).head?) hmore
    rw [List.flatMap_cons, hd] at hsecond
    exact (Option.some.inj hsecond).symm

/-- A string between double quotes is one of a single line. -/
theorem string_append (h : StringText s text) {rest : List Char} (hrest : rest.head? ≠ some '"') :
    string (text ++ rest) = some (s.toList, rest) := by
  have hspanning : spanningBasic (text ++ rest) = none :=
    bind_of_none (word_eq_none (h.not_spanning hrest)) _
  rw [string, orElse_of_none hspanning]
  exact orElse_of_eq (basicString_append h rest) _

/-- What does not start with a quote is no string. -/
theorem string_of_head? {cs : List Char} (h : ∀ c ∈ cs.head?, c ≠ '"' ∧ c ≠ '\'') :
    string cs = none := by
  have hchar {q : Char} (hq : ∀ c ∈ cs.head?, c ≠ q) : char q cs = none :=
    one_of_not fun c hc => beq_false_of_ne (hq c hc)
  have hspanning {q : Char} (hq : ∀ c ∈ cs.head?, c ≠ q) (part : Reader (List Char)) :
      spanning q part cs = none := by
    refine bind_of_none (word_eq_none ?_) _
    rw [String.toList_ofList]
    rintro ⟨more, rfl⟩
    exact hq q rfl rfl
  have hspanningBasic : spanningBasic cs = none := hspanning (fun c hc => (h c hc).1) _
  have hspanningLiteral : spanningLiteral cs = none := hspanning (fun c hc => (h c hc).2) _
  have hbasic : basicString cs = none :=
    seqLeft_of_none (seqRight_of_none (hchar fun c hc => (h c hc).1) _) _
  have hliteral : literalString cs = none :=
    seqLeft_of_none (seqRight_of_none (hchar fun c hc => (h c hc).2) _) _
  rw [string, orElse_of_none hspanningBasic, orElse_of_none hbasic,
    orElse_of_none hspanningLiteral, hliteral]

end LoxTokens.Toml
