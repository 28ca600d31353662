/-!
# UTF-8

Offsets into a text count bytes of its UTF-8 form. A text can be cut only between two characters,
and a byte sequence is read by taking off the one character whose form starts it.
-/

namespace LoxTokens.Utf8

/-- The bytes of a text. -/
def encode (text : List Char) : List UInt8 := text.flatMap String.utf8EncodeChar

/-- The number of bytes of a text. -/
def size : List Char → Nat
  | [] => 0
  | c :: text => c.utf8Size + size text

@[simp] theorem encode_nil : encode [] = [] := rfl

@[simp] theorem encode_append (s t : List Char) : encode (s ++ t) = encode s ++ encode t := by
  simp [encode]

theorem encode_flatMap {α : Type} (f : α → List Char) (xs : List α) :
    encode (xs.flatMap f) = xs.flatMap fun x => encode (f x) :=
  List.flatMap_assoc

@[simp] theorem size_nil : size [] = 0 := rfl

@[simp] theorem size_cons (c : Char) (t : List Char) : size (c :: t) = c.utf8Size + size t := rfl

@[simp] theorem size_append (s t : List Char) : size (s ++ t) = size s + size t := by
  induction s with
  | nil => simp
  | cons c s ih => rw [List.cons_append, size_cons, size_cons, ih, Nat.add_assoc]

@[simp] theorem size_reverse (t : List Char) : size t.reverse = size t := by
  induction t with
  | nil => rfl
  | cons c t ih => rw [List.reverse_cons, size_append, ih, size_cons, size_nil, size_cons]; omega

/-- Cut a text after a number of bytes: only between two characters, and not past its end. -/
def cut? : List Char → Nat → Option (List Char × List Char)
  | text, 0 => some ([], text)
  | [], _ + 1 => none
  | c :: text, n + 1 =>
    if c.utf8Size ≤ n + 1 then
      (cut? text (n + 1 - c.utf8Size)).map fun (front, back) => (c :: front, back)
    else none

/-- Every character takes at least one byte. -/
theorem eq_nil_of_size_eq_zero {t : List Char} (h : size t = 0) : t = [] := by
  cases t with
  | nil => rfl
  | cons c t =>
    have := Char.utf8Size_pos c
    rw [size_cons] at h
    omega

theorem length_encode (t : List Char) : (encode t).length = size t := by
  induction t with
  | nil => rfl
  | cons c t ih =>
    rw [encode, List.flatMap_cons, List.length_append, String.length_utf8EncodeChar, size_cons,
      ← ih]
    rfl

/-- The bytes of a front of a text are as many as its size. -/
theorem take_size_encode (front back : List Char) :
    (encode (front ++ back)).take (size front) = encode front := by
  rw [encode_append, ← length_encode, List.take_left]

/-- Only the empty text has no bytes. -/
theorem encode_eq_nil_iff {t : List Char} : encode t = [] ↔ t = [] := by
  constructor
  · intro h
    exact eq_nil_of_size_eq_zero (by rw [← length_encode, h, List.length_nil])
  · rintro rfl
    rfl

/-- A text is cut where its front has that many bytes, and nowhere else. -/
theorem cut?_eq_some_iff {text front back : List Char} {n : Nat} :
    cut? text n = some (front, back) ↔ text = front ++ back ∧ size front = n := by
  induction text generalizing n front with
  | nil =>
    cases n with
    | zero =>
      simp only [cut?, Option.some.injEq, Prod.mk.injEq, List.nil_eq_append_iff]
      constructor
      · rintro ⟨rfl, rfl⟩
        exact ⟨⟨rfl, rfl⟩, rfl⟩
      · rintro ⟨⟨rfl, rfl⟩, -⟩
        exact ⟨rfl, rfl⟩
    | succ n =>
      simp only [cut?, reduceCtorEq, List.nil_eq_append_iff, false_iff]
      rintro ⟨⟨rfl, -⟩, hs⟩
      cases hs
  | cons c text ih =>
    have hpos := Char.utf8Size_pos c
    cases n with
    | zero =>
      simp only [cut?, Option.some.injEq, Prod.mk.injEq]
      constructor
      · rintro ⟨rfl, rfl⟩
        exact ⟨rfl, rfl⟩
      · rintro ⟨ht, hs⟩
        obtain rfl := eq_nil_of_size_eq_zero hs
        exact ⟨rfl, ht⟩
    | succ n =>
      cases front with
      | nil =>
        simp only [cut?, size_nil, Nat.right_eq_add, Nat.add_eq_zero_iff, Nat.succ_ne_self,
          and_false, iff_false]
        split <;> simp
      | cons d front =>
        simp only [cut?, List.cons_append, List.cons.injEq, size_cons]
        split
        · simp only [Option.map_eq_some_iff, Prod.exists, Prod.mk.injEq, List.cons.injEq]
          constructor
          · rintro ⟨f, b, hf, ⟨rfl, rfl⟩, rfl⟩
            obtain ⟨rfl, hs⟩ := ih.1 hf
            exact ⟨⟨rfl, rfl⟩, by omega⟩
          · rintro ⟨⟨rfl, rfl⟩, hs⟩
            exact ⟨front, back, ih.2 ⟨rfl, by omega⟩, ⟨rfl, rfl⟩, rfl⟩
        · simp only [reduceCtorEq, false_iff]
          rintro ⟨⟨rfl, -⟩, hs⟩
          omega

/-- Fronts of one text with as many bytes are the same, and so is what follows them. -/
theorem append_inj_of_size {s t s' t' : List Char} (h : s ++ t = s' ++ t')
    (hs : size s = size s') : s = s' ∧ t = t' := by
  have hcut : cut? (s ++ t) (size s) = some (s, t) := cut?_eq_some_iff.2 ⟨rfl, rfl⟩
  have hcut' : cut? (s ++ t) (size s) = some (s', t') := cut?_eq_some_iff.2 ⟨h, hs.symm⟩
  exact Prod.mk.inj (Option.some.inj (hcut.symm.trans hcut'))

theorem size_le_of_isPrefix {s t : List Char} (h : s <+: t) : size s ≤ size t := by
  obtain ⟨r, rfl⟩ := h
  rw [size_append]
  exact Nat.le_add_right _ _

/-- Of two fronts of a text the one with fewer bytes is a front of the other. -/
theorem isPrefix_of_size_le {s t text : List Char} (hs : s <+: text) (ht : t <+: text)
    (h : size s ≤ size t) : s <+: t := by
  rcases List.prefix_or_prefix_of_prefix hs ht with hst | ⟨r, rfl⟩
  · exact hst
  · have hr : r = [] := by
      apply eq_nil_of_size_eq_zero
      rw [size_append] at h
      omega
    exact ⟨[], by rw [hr, List.append_nil, List.append_nil]⟩

/-- The text between two byte offsets, if they are in order and both stand between characters. -/
def slice? (text : List Char) (start stop : Nat) : Option (List Char) :=
  if start ≤ stop then
    (cut? text start).bind fun (_, back) => (cut? back (stop - start)).map Prod.fst
  else none

/-- A slice is what stands between a front and a back of the text. -/
theorem slice?_eq_some_iff {text part : List Char} {start stop : Nat} :
    slice? text start stop = some part ↔
      ∃ front back, text = front ++ part ++ back ∧ size front = start ∧
        size (front ++ part) = stop := by
  simp only [slice?, size_append]
  constructor
  · intro h
    split at h
    · obtain ⟨⟨front, rest⟩, hf, h⟩ := Option.bind_eq_some_iff.1 h
      obtain ⟨⟨middle, back⟩, hb, hm⟩ := Option.map_eq_some_iff.1 h
      obtain rfl : middle = part := hm
      obtain ⟨rfl, hs⟩ := cut?_eq_some_iff.1 hf
      obtain ⟨rfl, hp⟩ := cut?_eq_some_iff.1 hb
      exact ⟨front, back, (List.append_assoc ..).symm, hs, by omega⟩
    · cases h
  · rintro ⟨front, back, rfl, hs, hp⟩
    have hf : cut? (front ++ part ++ back) start = some (front, part ++ back) :=
      cut?_eq_some_iff.2 ⟨List.append_assoc .., hs⟩
    have hb : cut? (part ++ back) (stop - start) = some (part, back) :=
      cut?_eq_some_iff.2 ⟨rfl, by omega⟩
    rw [if_pos (by omega), hf, Option.bind_some, hb]
    rfl

/-- The character at a byte offset, if each byte up to there is a character of its own. -/
def ascii? (bytes : List UInt8) (k : Nat) : Option Char :=
  match bytes[k]? with
  | some b =>
    if (bytes.take (k + 1)).all (·.toNat < 0x80) then some (Char.ofNat b.toNat) else none
  | none => none

/-- A character of one byte is that byte. -/
theorem encode_cons_of_lt {c : Char} (h : c.toNat < 0x80) (text : List Char) :
    encode (c :: text) = UInt8.ofNat c.toNat :: encode text := by
  have hv : c.val.toNat ≤ 127 := by
    have : c.toNat = c.val.toNat := rfl
    omega
  simp only [encode, List.flatMap_cons, String.utf8EncodeChar, if_pos hv, List.singleton_append]
  rfl

/-- The first of several bytes of a character is no character of its own. -/
theorem encode_cons_of_le {c : Char} (h : 0x80 ≤ c.toNat) (text : List Char) :
    ∃ b bytes, encode (c :: text) = b :: bytes ∧ 0x80 ≤ b.toNat := by
  have hv : ¬ c.val.toNat ≤ 127 := by
    have : c.toNat = c.val.toNat := rfl
    omega
  simp only [encode, List.flatMap_cons, String.utf8EncodeChar, if_neg hv]
  split
  · exact ⟨_, _, rfl, by simp only [UInt8.toNat_ofNat']; omega⟩
  split
  · exact ⟨_, _, rfl, by simp only [UInt8.toNat_ofNat']; omega⟩
  · exact ⟨_, _, rfl, by simp only [UInt8.toNat_ofNat']; omega⟩

/-- All bytes of a character that has several are above those of the others. -/
theorem le_of_mem_utf8EncodeChar {c : Char} (h : 0x80 ≤ c.toNat) :
    ∀ b ∈ String.utf8EncodeChar c, 0x80 ≤ b.toNat := by
  have hv : ¬ c.val.toNat ≤ 127 := by
    have : c.toNat = c.val.toNat := rfl
    omega
  unfold String.utf8EncodeChar
  simp only [if_neg hv]
  split
  · simp only [List.forall_mem_cons, UInt8.toNat_ofNat']
    exact ⟨by omega, by omega, nofun⟩
  split
  · simp only [List.forall_mem_cons, UInt8.toNat_ofNat']
    exact ⟨by omega, by omega, by omega, nofun⟩
  · simp only [List.forall_mem_cons, UInt8.toNat_ofNat']
    exact ⟨by omega, by omega, by omega, by omega, nofun⟩

/-- A newline is one byte, which no other character has. -/
theorem count_newline_encode (text : List Char) : (encode text).count 10 = text.count '\n' := by
  induction text with
  | nil => rfl
  | cons c text ih =>
    by_cases h : c.toNat < 0x80
    · have hbyte : UInt8.ofNat c.toNat = 10 ↔ c = '\n' := by
        constructor
        · intro he
          have hn := congrArg UInt8.toNat he
          rw [UInt8.toNat_ofNat'] at hn
          have hten : c.toNat = 10 := by
            change _ = 10 at hn
            omega
          rw [← Char.ofNat_toNat c, hten]
        · rintro rfl
          rfl
      rw [encode_cons_of_lt h, List.count_cons, List.count_cons, ih]
      simp only [beq_iff_eq, hbyte]
    · have hne : c ≠ '\n' := by
        rintro rfl
        exact h (by decide)
      have hbytes : 10 ∉ String.utf8EncodeChar c := fun hm =>
        absurd (le_of_mem_utf8EncodeChar (Nat.not_lt.1 h) 10 hm) (by decide)
      have hc : encode (c :: text) = String.utf8EncodeChar c ++ encode text := rfl
      rw [hc, List.count_append, List.count_eq_zero_of_not_mem hbytes, Nat.zero_add, ih,
        List.count_cons_of_ne hne]

theorem newline_mem_encode_iff {text : List Char} : 10 ∈ encode text ↔ '\n' ∈ text := by
  rw [← List.count_pos_iff, count_newline_encode, List.count_pos_iff]

/-- Behind a byte that is a character of its own, counting goes on. -/
theorem ascii?_cons_succ {b : UInt8} (h : b.toNat < 0x80) (bytes : List UInt8) (k : Nat) :
    ascii? (b :: bytes) (k + 1) = ascii? bytes k := by
  simp only [ascii?, List.getElem?_cons_succ, List.take_succ_cons, List.all_cons, h, decide_true,
    Bool.true_and]

/-- A byte that is no character of its own stops the count. -/
theorem ascii?_cons_of_le {b : UInt8} (h : 0x80 ≤ b.toNat) (bytes : List UInt8) (k : Nat) :
    ascii? (b :: bytes) k = none := by
  have hb : ¬ b.toNat < 0x80 := Nat.not_lt.2 h
  simp only [ascii?, List.take_succ_cons, List.all_cons, hb, decide_false, Bool.false_and,
    Bool.false_eq_true, if_false]
  split <;> rfl

/-- Bytes can be counted in place of characters as far as every character takes one byte, and then
both counts agree. -/
theorem ascii?_encode_eq_some_iff {text : List Char} {k : Nat} {c : Char} :
    ascii? (encode text) k = some c ↔
      text[k]? = some c ∧ ∀ d ∈ text.take (k + 1), d.toNat < 0x80 := by
  induction text generalizing k with
  | nil => simp [ascii?]
  | cons d text ih =>
    rw [List.take_succ_cons, List.forall_mem_cons]
    by_cases hd : d.toNat < 0x80
    · have hn : (UInt8.ofNat d.toNat).toNat = d.toNat := by
        rw [UInt8.toNat_ofNat']
        omega
      rw [encode_cons_of_lt hd]
      cases k with
      | zero => simp [ascii?, hn, hd]
      | succ k =>
        rw [ascii?_cons_succ (by rwa [hn]), ih, List.getElem?_cons_succ]
        simp only [hd, true_and]
    · obtain ⟨b, bytes, he, hb⟩ := encode_cons_of_le (Nat.not_lt.1 hd) text
      rw [he, ascii?_cons_of_le hb]
      simp only [hd, false_and, and_false, reduceCtorEq]

/-- Where bytes can be counted in place of characters, both counts agree. -/
theorem getElem?_of_ascii? {text : List Char} {k : Nat} {c : Char}
    (h : ascii? (encode text) k = some c) : text[k]? = some c :=
  (ascii?_encode_eq_some_iff.1 h).1

/-- The count needs no more of a text than the characters up to the place where it ends. -/
theorem ascii?_encode_take (text : List Char) (k : Nat) :
    ascii? (encode (text.take (k + 1))) k = ascii? (encode text) k := by
  refine Option.ext fun c => ?_
  rw [ascii?_encode_eq_some_iff, ascii?_encode_eq_some_iff,
    List.getElem?_take_of_lt (Nat.lt_succ_self k), List.take_take, Nat.min_self]

/-- The code point that a lead byte and its followers spell, correctly or not. -/
def codePoint (bytes : List UInt8) : Nat :=
  let lead := (bytes.getD 0 0).toNat
  let low (i : Nat) : Nat := (bytes.getD i 0).toNat % 64
  if lead < 0x80 then lead
  else if lead < 0xE0 then lead % 32 * 64 + low 1
  else if lead < 0xF0 then lead % 16 * 4096 + low 1 * 64 + low 2
  else lead % 8 * 262144 + low 1 * 4096 + low 2 * 64 + low 3

/-- Take off the character whose form starts the bytes. -/
def first? (bytes : List UInt8) : Option (Char × List UInt8) :=
  let c := Char.ofNat (codePoint bytes)
  if (String.utf8EncodeChar c).isPrefixOf bytes then some (c, bytes.drop c.utf8Size) else none

theorem length_lt_of_first? {bytes rest : List UInt8} {c : Char}
    (h : first? bytes = some (c, rest)) : rest.length < bytes.length := by
  simp only [first?] at h
  split at h
  · rename_i hp
    have hb : bytes ≠ [] := by
      intro he
      rw [he, List.isPrefixOf_iff_prefix, List.prefix_nil] at hp
      have hl := congrArg List.length hp
      rw [String.length_utf8EncodeChar] at hl
      exact absurd hl (Nat.ne_of_gt (Char.utf8Size_pos _))
    cases h
    rw [List.length_drop]
    have := List.length_pos_iff.2 hb
    have := Char.utf8Size_pos (Char.ofNat (codePoint bytes))
    omega
  · cases h

/-- The longest readable front of a byte sequence, and the bytes after it. -/
def decodeFront (bytes : List UInt8) : List Char × List UInt8 :=
  match _h : first? bytes with
  | none => ([], bytes)
  | some (c, rest) =>
    let (text, tail) := decodeFront rest
    (c :: text, tail)
termination_by bytes.length
decreasing_by exact length_lt_of_first? ‹_›

/-- The text of a byte sequence, if all of it is UTF-8. -/
def decode? (bytes : List UInt8) : Option (List Char) :=
  match decodeFront bytes with
  | (text, []) => some text
  | _ => none

/-- Stands for the bytes of a character that was cut. -/
def replacement : Char := '\uFFFD'

/-- The text of bytes that may end inside a character: the cut character becomes one mark. -/
def decodeCut (bytes : List UInt8) : List Char :=
  match decodeFront bytes with
  | (text, []) => text
  | (text, _) => text ++ [replacement]

/-- The form of a character spells its code point. -/
theorem codePoint_utf8EncodeChar (c : Char) (rest : List UInt8) :
    codePoint (String.utf8EncodeChar c ++ rest) = c.toNat := by
  have hv : c.val.toNat < 0x110000 := by
    rcases c.valid with h | h <;> omega
  change codePoint (_ ++ rest) = c.val.toNat
  unfold String.utf8EncodeChar
  generalize c.val.toNat = v at hv ⊢
  dsimp only
  split
  · have hlead : (UInt8.ofNat v).toNat = v := by
      rw [UInt8.toNat_ofNat']
      omega
    simp only [codePoint, List.cons_append, List.getD_cons_zero, hlead]
    rw [if_pos (by omega)]
  split
  · simp only [codePoint, List.cons_append, List.getD_cons_zero, List.getD_cons_succ,
      UInt8.toNat_ofNat']
    rw [if_neg (by omega), if_pos (by omega)]
    omega
  split
  · simp only [codePoint, List.cons_append, List.getD_cons_zero, List.getD_cons_succ,
      UInt8.toNat_ofNat']
    rw [if_neg (by omega), if_neg (by omega), if_pos (by omega)]
    omega
  · simp only [codePoint, List.cons_append, List.getD_cons_zero, List.getD_cons_succ,
      UInt8.toNat_ofNat']
    rw [if_neg (by omega), if_neg (by omega), if_neg (by omega)]
    omega

/-- A character in front of any bytes is taken off them. -/
theorem first?_utf8EncodeChar (c : Char) (rest : List UInt8) :
    first? (String.utf8EncodeChar c ++ rest) = some (c, rest) := by
  have hp : (String.utf8EncodeChar c).isPrefixOf (String.utf8EncodeChar c ++ rest) = true :=
    List.isPrefixOf_iff_prefix.2 (List.prefix_append _ _)
  have hd : (String.utf8EncodeChar c ++ rest).drop c.utf8Size = rest := by
    rw [← String.length_utf8EncodeChar, List.drop_left]
  simp only [first?, codePoint_utf8EncodeChar, Char.ofNat_toNat, hp, hd, if_true]

/-- A text is read back from its bytes. -/
theorem decode?_encode (text : List Char) : decode? (encode text) = some text := by
  have hfront : decodeFront (encode text) = (text, []) := by
    induction text with
    | nil =>
      rw [decodeFront]
      rfl
    | cons c text ih =>
      have hfirst : first? (encode (c :: text)) = some (c, encode text) :=
        first?_utf8EncodeChar c (encode text)
      rw [decodeFront]
      split
      · rename_i hnone
        rw [hfirst] at hnone
        cases hnone
      · rename_i d rest hsome
        rw [hfirst] at hsome
        cases hsome
        rw [ih]
  rw [decode?, hfront]

/-- What is taken off is the form of a character. -/
theorem eq_append_of_first? {bytes rest : List UInt8} {c : Char}
    (h : first? bytes = some (c, rest)) : bytes = String.utf8EncodeChar c ++ rest := by
  simp only [first?] at h
  split at h
  · rename_i hp
    cases h
    rw [← String.length_utf8EncodeChar]
    exact (List.prefix_iff_eq_append.1 (List.isPrefixOf_iff_prefix.1 hp)).symm
  · cases h

/-- The readable front and the bytes after it are all there is. -/
theorem encode_decodeFront (bytes : List UInt8) :
    encode (decodeFront bytes).1 ++ (decodeFront bytes).2 = bytes := by
  fun_induction decodeFront bytes with
  | case1 bytes h => rfl
  | case2 bytes c rest h text tail hrest ih =>
    rw [hrest] at ih
    rw [eq_append_of_first? h, ← ih, encode, List.flatMap_cons, List.append_assoc]
    rfl

/-- Nothing but the bytes of a text is read as that text. -/
theorem decode?_eq_some_iff {bytes : List UInt8} {text : List Char} :
    decode? bytes = some text ↔ bytes = encode text := by
  constructor
  · intro h
    have hfront := encode_decodeFront bytes
    rw [decode?] at h
    split at h
    · rename_i heq
      cases h
      rw [heq, List.append_nil] at hfront
      exact hfront.symm
    · cases h
  · rintro rfl
    exact decode?_encode text

end LoxTokens.Utf8
