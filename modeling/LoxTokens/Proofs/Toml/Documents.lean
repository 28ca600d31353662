import LoxTokens.Toml.Document
import LoxTokens.Proofs.Toml.Numbers
import LoxTokens.Proofs.Toml.Strings

/-!
# Documents of assignments are read

Line by line, a document gives the names their values, in order and whatever its layout
(`document_eq`), if no name stands there twice. Each reader is shown to take exactly what was
written for it in front of what may follow there.
-/

namespace LoxTokens.Toml

open Reader

variable {name : String} {v : Value} {said : Option (String × Value)} {entries : Entries}
  {text key rest : List Char}

/-- The characters that a line ends with. -/
def lineEnds : List Char := ['\n', '\r']

/-- The characters that may stand behind what a line says. -/
def remarkStarts : List Char := ['#', '\n', '\r']

/-! Blanks. -/

theorem isBlank_of_isBlanks (h : IsBlanks text) : ∀ c ∈ text, isBlank c = true := by
  intro c hc
  rcases h c hc with rfl | rfl <;> rfl

theorem isBlank_eq_false {c : Char} (hspace : c ≠ ' ') (htab : c ≠ '\t') : isBlank c = false := by
  rw [isBlank, Bool.or_eq_false_iff, beq_eq_false_iff_ne, beq_eq_false_iff_ne]
  exact ⟨hspace, htab⟩

theorem blanks_append (h : IsBlanks text) (hrest : ∀ c ∈ rest.head?, isBlank c = false) :
    blanks (text ++ rest) = some ((), rest) :=
  discard_of_eq (run_append (isBlank_of_isBlanks h) hrest)

theorem blanks_of_head? (hrest : ∀ c ∈ rest.head?, isBlank c = false) :
    blanks rest = some ((), rest) :=
  show blanks ([] ++ rest) = _ from blanks_append nofun hrest

/-! Values. -/

theorem value_of_scalar {cs : List Char} (h : scalar cs = some (v, rest)) (levels : Nat) :
    value levels cs = some (v, rest) := by
  cases levels with
  | zero => exact h
  | succ levels => exact orElse_of_eq h _

/-- A scalar is read in front of whatever ends a value. -/
theorem scalar_append (h : ScalarText v text) (hrest : StartsIn valueEnds rest) :
    scalar (text ++ rest) = some (v, rest) := by
  cases h with
  | truth b => cases b <;> rfl
  | integer h hleast hgreatest =>
    have hquote : ∀ c ∈ (text ++ rest).head?, c ≠ '"' ∧ c ≠ '\'' := by
      intro c hc
      rcases h.head? rest c hc with hdigit | hother
      · exact ⟨Text.ne_of_test hdigit rfl, Text.ne_of_test hdigit rfl⟩
      · have hsigns : ∀ d ∈ ['_', '+', '-'], d ≠ '"' ∧ d ≠ '\'' :=
          List.all_iff_forall_prop.1 (by decide)
        exact hsigns c hother
    rw [scalar, orElse_of_none (bind_of_none (string_of_head? hquote) _),
      orElse_of_none (moment_of_integerText h hrest)]
    exact orElse_of_eq (number_append h hleast hgreatest hrest) _
  | @string s _ h =>
    have hquote : rest.head? ≠ some '"' := fun hhead =>
      (by decide : '"' ∉ valueEnds) (hrest '"' hhead)
    rw [← String.ofList_toList (s := s)]
    exact orElse_of_eq (bind_of_eq (string_append h hquote) _) _

theorem ScalarText.isBlank_eq_false (h : ScalarText v text) (rest : List Char) :
    ∀ c ∈ (text ++ rest).head?, isBlank c = false := by
  intro c hc
  cases h with
  | truth b => cases b <;> cases hc <;> rfl
  | integer h =>
    rcases h.head? rest c hc with hdigit | hother
    · exact Toml.isBlank_eq_false (Text.ne_of_test hdigit rfl) (Text.ne_of_test hdigit rfl)
    · have hsigns : ∀ d ∈ ['_', '+', '-'], isBlank d = false :=
        List.all_iff_forall_prop.1 (by decide)
      exact hsigns c hother
  | string h =>
    obtain ⟨parts, -, -, rfl⟩ := h
    cases hc
    rfl

/-! Names. -/

theorem isBare_of_name {c : Char} (h : c.isAlphanum = true ∨ c = '_' ∨ c = '-') :
    isBare c = true := by
  simpa [isBare, or_assoc] using h

/-- What a name starts with. -/
def StartsName (c : Char) : Prop := c = '"' ∨ isBare c = true

theorem StartsName.ne {c d : Char} (h : StartsName c) (hquote : d ≠ '"')
    (hbare : isBare d = false) : c ≠ d := by
  rcases h with rfl | h
  · exact hquote.symm
  · exact Text.ne_of_test h hbare

theorem NameText.head? (h : NameText name key) (rest : List Char) :
    ∀ c ∈ (key ++ rest).head?, StartsName c := by
  cases h with
  | bare hne h =>
    refine forall_mem_head?_append (fun c hc => ?_) fun hnil => absurd hnil hne
    exact Or.inr (isBare_of_name (h c (List.mem_of_head? hc)))
  | quoted h =>
    obtain ⟨parts, -, -, rfl⟩ := h
    rintro c ⟨⟩
    exact Or.inl rfl

theorem StartsName.isBlank_eq_false {c : Char} (h : StartsName c) : isBlank c = false :=
  Toml.isBlank_eq_false (h.ne (by decide) rfl) (h.ne (by decide) rfl)

/-- A name is read in front of what does not lengthen it. -/
theorem name_append (h : NameText name key) (hrest : ∀ c ∈ rest.head?, isBare c = false) :
    (basicString <|> literalString <|> do return (← one isBare) :: (← run isBare)) (key ++ rest) =
      some (name.toList, rest) := by
  cases h with
  | bare hne h =>
    have hbare : ∀ c ∈ name.toList, isBare c = true := fun c hc => isBare_of_name (h c hc)
    obtain ⟨c, more, hname⟩ := List.exists_cons_of_ne_nil hne
    rw [hname] at hbare ⊢
    obtain ⟨hc, hmore⟩ := List.forall_mem_cons.1 hbare
    have hbasic : basicString ((c :: more) ++ rest) = none :=
      seqLeft_of_none (seqRight_of_none (char_of_ne (Text.ne_of_test hc rfl)) _) _
    have hliteral : literalString ((c :: more) ++ rest) = none :=
      seqLeft_of_none (seqRight_of_none (char_of_ne (Text.ne_of_test hc rfl)) _) _
    rw [orElse_of_none hbasic, orElse_of_none hliteral]
    exact (bind_of_eq (one_cons hc) _).trans (bind_of_eq (run_append hmore hrest) _)
  | quoted h => exact orElse_of_eq (basicString_append h rest) _

/-- A key of one part is read up to the sign behind it. -/
theorem key_append {left : List Char} (hkey : NameText name key) (hleft : IsBlanks left)
    (rest : List Char) :
    Toml.key (key ++ (left ++ '=' :: rest)) = some (⟨[], name⟩, '=' :: rest) := by
  have hbefore := blanks_of_head? fun c hc =>
    (hkey.head? (left ++ '=' :: rest) c hc).isBlank_eq_false
  have hbehind : ∀ c ∈ (left ++ '=' :: rest).head?, isBare c = false := by
    refine forall_mem_head?_append (fun c hc => ?_) fun _ c hc => ?_
    · rcases hleft c (List.mem_of_head? hc) with rfl | rfl <;> rfl
    · obtain rfl := Option.some.inj hc
      rfl
  have hsign : ∀ c ∈ ('=' :: rest).head?, isBlank c = false := by
    rintro c ⟨⟩
    rfl
  have hpart : part (key ++ (left ++ '=' :: rest)) = some (name, '=' :: rest) := by
    rw [part, bind_of_eq hbefore, bind_of_eq (name_append hkey hbehind),
      bind_of_eq (blanks_append hleft hsign), String.ofList_toList]
    rfl
  rw [Toml.key, bind_of_eq (separated_of_eq hpart rfl)]
  rfl

/-! Lines. -/

/-- The statement that a name has a value. -/
def Statement.ofEntry (e : String × Value) : Statement := .assignment ⟨[], e.1⟩ e.2

/-- An assignment is read up to what stands behind it on its line. -/
theorem assignment_append {left right after : List Char} (hkey : NameText name key)
    (hleft : IsBlanks left) (hright : IsBlanks right) (htext : ScalarText v text)
    (hafter : IsBlanks after) (hrest : StartsIn remarkStarts rest) (levels : Nat) :
    assignment (value levels)
        (key ++ (left ++ '=' :: (right ++ (text ++ (after ++ rest))))) =
      some ((⟨[], name⟩, v), rest) := by
  have hends : StartsIn valueEnds (after ++ rest) := by
    refine forall_mem_head?_append (fun c hc => ?_) fun _ c hc => ?_
    · rcases hafter c (List.mem_of_head? hc) with rfl | rfl <;> decide
    · exact List.mem_cons_of_mem _ (List.mem_cons_of_mem _ (hrest c hc))
  rw [assignment, bind_of_eq (key_append hkey hleft _), bind_of_eq (discard_of_eq (char_cons '=')),
    bind_of_eq (blanks_append hright (htext.isBlank_eq_false _)),
    bind_of_eq (value_of_scalar (scalar_append htext hends) levels),
    bind_of_eq (blanks_append hafter (hrest.forall (by decide)))]
  rfl

/-- A comment is read up to the end of its line. -/
theorem maybe_comment_append (h : IsRemark text) (hrest : StartsIn lineEnds rest) :
    ∃ found, maybe comment (text ++ rest) = some (found, rest) := by
  obtain rfl | ⟨body, rfl, hbody⟩ := h
  · have hnone : comment rest = none := bind_of_none (discard_of_none (one_of_not
      (hrest.forall (by decide)))) _
    exact ⟨none, maybe_of_none hnone⟩
  · have hplain : ∀ c ∈ body, isPlain c = true := fun c hc => isPlain_of_not_isControl (hbody c hc)
    have hrun := run_append hplain (hrest.forall (by decide))
    exact ⟨some (), maybe_of_eq ((bind_of_eq (discard_of_eq (char_cons '#')) _).trans
      (discard_of_eq hrun))⟩

theorem IsRemark.head? (h : IsRemark text) (hrest : StartsIn lineEnds rest) :
    StartsIn remarkStarts (text ++ rest) := by
  obtain rfl | ⟨body, rfl, -⟩ := h
  · exact fun c hc => List.mem_cons_of_mem _ (hrest c hc)
  · rintro c ⟨⟩
    exact List.mem_cons_self

/-- Nothing is said where a comment starts or a line ends. -/
theorem statement_of_head? {cs : List Char} (h : StartsIn remarkStarts cs) :
    statement cs = none := by
  cases cs with
  | nil => rfl
  | cons c cs =>
    have hc := h c rfl
    simp only [remarkStarts, List.mem_cons, List.not_mem_nil, or_false] at hc
    rcases hc with rfl | rfl | rfl <;> rfl

/-- What starts with a name is no header. -/
theorem statement_of_assignment {cs : List Char} {k : Key} (hcs : ∀ c ∈ cs.head?, StartsName c)
    (h : assignment (value (limit - 1)) cs = some ((k, v), rest)) :
    statement cs = some (.assignment k v, rest) := by
  have hword {more : List Char} {w : String} (hw : w.toList = '[' :: more) : word w cs = none := by
    refine word_eq_none ?_
    rw [hw]
    rintro ⟨tail, rfl⟩
    exact (hcs '[' rfl).ne (by decide) rfl rfl
  rw [statement, orElse_of_none (bind_of_none (hword rfl) _),
    orElse_of_none (bind_of_none (hword rfl) _)]
  exact bind_of_eq h _

/-- A line is read up to its end. -/
theorem line_append (h : LineText said text) (hrest : StartsIn lineEnds rest) :
    line (text ++ rest) = some (said.map Statement.ofEntry, rest) := by
  have hblank {cs : List Char} (hcs : StartsIn remarkStarts cs) :
      ∀ c ∈ cs.head?, isBlank c = false := hcs.forall (by decide)
  cases h with
  | empty hblanks hremark =>
    have hhead := hremark.head? hrest
    obtain ⟨found, hcomment⟩ := maybe_comment_append hremark hrest
    rw [List.append_assoc, line, bind_of_eq (blanks_append hblanks (hblank hhead)),
      bind_of_eq (maybe_of_none (statement_of_head? hhead)),
      bind_of_eq (blanks_of_head? (hblank hhead)), bind_of_eq (discard_of_eq hcomment)]
    rfl
  | assignment hbefore hkey hleft hright htext hafter hremark =>
    have hhead := hremark.head? hrest
    obtain ⟨found, hcomment⟩ := maybe_comment_append hremark hrest
    simp only [List.append_assoc, List.cons_append]
    rw [line, bind_of_eq (blanks_append hbefore fun c hc =>
        (hkey.head? _ c hc).isBlank_eq_false),
      bind_of_eq (maybe_of_eq (statement_of_assignment (hkey.head? _)
        (assignment_append hkey hleft hright htext hafter hhead _))),
      bind_of_eq (blanks_of_head? (hblank hhead)), bind_of_eq (discard_of_eq hcomment)]
    rfl

/-! Documents. -/

theorem newline_append {ending : List Char} (h : IsLineEnd ending) (rest : List Char) :
    newline (ending ++ rest) = some ('\n', rest) := by
  rcases h with rfl | rfl <;> rfl

theorem IsLineEnd.startsIn {ending : List Char} (h : IsLineEnd ending) (rest : List Char) :
    StartsIn lineEnds (ending ++ rest) := by
  rcases h with rfl | rfl
  · rintro c ⟨⟩
    exact List.mem_cons_self
  · rintro c ⟨⟩
    exact List.mem_cons_of_mem _ List.mem_cons_self

/-- What the lines of a document say, one after the other. -/
theorem exists_lines (h : DocumentText entries text) :
    ∃ first mid more, line text = some (first, mid) ∧ mid.length ≤ text.length ∧
      (∀ n, mid.length ≤ n → upTo (newline *> line) n mid = some (more, [])) ∧
      (first :: more).reduceOption = entries.map Statement.ofEntry := by
  induction h with
  | @last said text h =>
    have hline : line (text ++ []) = _ := line_append h nofun
    rw [List.append_nil] at hline
    refine ⟨_, [], [], hline, Nat.zero_le _, fun n _ => ?_, ?_⟩
    · cases n <;> rfl
    · cases said <;> rfl
  | @line said entries text ending rest h hending _ ih =>
    obtain ⟨first, mid, more, hfirst, hlength, hmore, hsays⟩ := ih
    have hnext : (newline *> line) (ending ++ rest) = some (first, mid) :=
      (seqRight_of_eq (newline_append hending rest) _).trans hfirst
    refine ⟨_, ending ++ rest, first :: more, line_append h (hending.startsIn rest),
      by simp, fun n hn => ?_, ?_⟩
    · -- One line is taken, and no more lines than characters are left.
      have hpos : 0 < ending.length := by rcases hending with rfl | rfl <;> decide
      rw [List.length_append] at hn
      obtain ⟨m, rfl⟩ : ∃ m, n = m + 1 := ⟨n - 1, by omega⟩
      exact (bind_of_eq (maybe_of_eq hnext) _).trans (bind_of_eq (hmore m (by omega)) _)
    · cases said with
      | none => exact hsays
      | some e => exact congrArg (Statement.ofEntry e :: ·) hsays

/-- No line starts with a mark of the byte order. -/
theorem LineText.head? (h : LineText said text) : ∀ c ∈ text.head?, c ≠ '\uFEFF' := by
  have hblanks {blanks : List Char} (hblanks : IsBlanks blanks) :
      ∀ c ∈ blanks.head?, c ≠ '\uFEFF' := by
    intro c hc
    rcases hblanks c (List.mem_of_head? hc) with rfl | rfl <;> decide
  cases h with
  | empty h hremark =>
    refine forall_mem_head?_append (hblanks h) fun _ c hc => ?_
    obtain rfl | ⟨body, rfl, -⟩ := hremark
    · cases hc
    · cases hc
      decide
  | assignment hbefore hkey =>
    exact forall_mem_head?_append (hblanks hbefore) fun _ c hc =>
      (hkey.head? _ c hc).ne (by decide) rfl

theorem DocumentText.head? (h : DocumentText entries text) : ∀ c ∈ text.head?, c ≠ '\uFEFF' := by
  cases h with
  | last h => exact h.head?
  | line h hending =>
    exact forall_mem_head?_append h.head? fun _ => (hending.startsIn _).forall (by decide)

/-- The statements of a document are its assignments. -/
theorem statements_eq (h : DocumentText entries text) :
    statements text = some (entries.map Statement.ofEntry, []) := by
  obtain ⟨first, mid, more, hfirst, -, hmore, hsays⟩ := exists_lines h
  have hmark : char '\uFEFF' text = none := one_of_not fun c hc => beq_false_of_ne (h.head? c hc)
  have hlines : separated line newline text = some (first :: more, []) :=
    separated_of_eq hfirst (hmore mid.length (Nat.le_refl _))
  rw [statements, bind_of_eq (discard_of_eq (maybe_of_none hmark)), bind_of_eq hlines,
    bind_of_eq (show atEnd [] = some ((), []) from rfl), hsays]
  rfl

/-- If names and values can be written, so can a document that assigns them. -/
theorem exists_documentText (hname : ∀ e ∈ entries, ∃ key, NameText e.1 key)
    (hvalue : ∀ e ∈ entries, ∃ text, ScalarText e.2 text) : ∃ text, DocumentText entries text := by
  have hnothing : IsBlanks [] := nofun
  induction entries with
  | nil => exact ⟨_, .last (.empty hnothing (Or.inl rfl))⟩
  | cons e entries ih =>
    obtain ⟨⟨key, hkey⟩, hname⟩ := List.forall_mem_cons.1 hname
    obtain ⟨⟨value, hvalue⟩, hvalues⟩ := List.forall_mem_cons.1 hvalue
    obtain ⟨text, htext⟩ := ih hname hvalues
    have hline := LineText.assignment hnothing hkey hnothing hnothing hvalue hnothing (Or.inl rfl)
    exact ⟨_, .line hline (Or.inl rfl) htext⟩

/-! Tables. -/

theorem assign_of_not_mem (h : name ∉ entries.map Prod.fst) :
    assign [] name v entries = some (entries ++ [(name, v)]) := by
  rw [assign]
  induction entries with
  | nil => rfl
  | cons e entries ih =>
    rw [List.map_cons, List.mem_cons, not_or] at h
    rw [alter, if_neg (Ne.symm h.1), ih h.2]
    rfl

/-- Assignments to different names add them one by one. -/
theorem fill_assignments {more : Entries} (h : ((entries ++ more).map Prod.fst).Nodup) :
    fill (more.map Statement.ofEntry) entries = some (entries ++ more) := by
  induction more generalizing entries with
  | nil =>
    rw [List.append_nil]
    rfl
  | cons e more ih =>
    have hnew : e.1 ∉ entries.map Prod.fst := by
      intro hmem
      rw [List.map_append, List.nodup_append] at h
      exact h.2.2 e.1 hmem e.1 List.mem_cons_self rfl
    rw [List.append_cons] at h ⊢
    rw [List.map_cons, Statement.ofEntry, fill, assign_of_not_mem hnew]
    exact ih h

/-- There is no header to be carried out. -/
theorem carryOut_assignments (more entries : Entries) :
    carryOut (more.map Statement.ofEntry) entries = some entries := by
  induction more with
  | nil => rfl
  | cons e more ih => exact ih

/-- A document gives the names their values, if no name has two. -/
theorem document_eq (h : DocumentText entries text) (hnodup : (entries.map Prod.fst).Nodup) :
    document text = some entries := by
  have hfill : fill (entries.map Statement.ofEntry) [] = some entries := fill_assignments hnodup
  rw [document, statements_eq h]
  simp only [Option.bind_eq_bind, Option.bind_some, hfill, carryOut_assignments]

end LoxTokens.Toml
