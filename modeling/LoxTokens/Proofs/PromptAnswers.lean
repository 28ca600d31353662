import LoxTokens.CommandLine.Answer
import LoxTokens.Proofs.EntryLines
import LoxTokens.Proofs.Lines

/-!
# What is answered at the prompt

Asked to inspect no file, the program takes the lines that are entered one by one. What it writes
for a line depends on no other line, so a session is the sum of its parts wherever a line ends: what
is entered in one line, open strings included, is not seen in what is written for another.
-/

namespace LoxTokens

namespace Prompt

/-- A line that was ended by a carriage return and a newline loses both. -/
def withoutReturn (line : List Char) : List Char :=
  if line.getLast? = some '\r' then line.dropLast else line

/-- The texts that an input enters, line by line: what stands in front of each newline, without a
carriage return at its end, and what stands behind the last newline unless it is nothing. -/
def texts (input : List Char) : List (List Char) :=
  let parts := input.splitOn '\n'
  parts.dropLast.map withoutReturn ++ parts.getLast?.toList.filter (· ≠ [])

/-- An input is entered line by line, and its last line may have no end. -/
@[elab_as_elim]
theorem input_induction {motive : List Char → Prop} (last : ∀ line, '\n' ∉ line → motive line)
    (ended : ∀ line rest, '\n' ∉ line → motive rest → motive (line ++ '\n' :: rest))
    (input : List Char) : motive input := by
  by_cases h : '\n' ∈ input
  · obtain ⟨line, rest, hinput, hline⟩ := List.eq_append_cons_of_mem h
    rw [hinput]
    exact ended line rest hline (input_induction last ended rest)
  · exact last input h
termination_by input.length
decreasing_by
  rw [hinput, List.length_append, List.length_cons]
  omega

section

variable {line rest input : List Char}

theorem mem_of_mem_withoutReturn {ch : Char} (h : ch ∈ withoutReturn line) : ch ∈ line := by
  unfold withoutReturn at h
  split at h
  · exact List.mem_of_mem_dropLast h
  · exact h

theorem texts_of_not_mem (h : '\n' ∉ line) : texts line = [line].filter (· ≠ []) := by
  rw [texts, List.splitOn_eq_singleton h]
  rfl

theorem texts_append_newline (h : '\n' ∉ line) (rest : List Char) :
    texts (line ++ '\n' :: rest) = withoutReturn line :: texts rest := by
  have hparts : (line ++ '\n' :: rest).splitOn '\n' = line :: rest.splitOn '\n' := by
    refine List.splitOnP_append_cons_of_forall_mem (fun ch hch => ?_) '\n' rfl rest
    rw [beq_eq_false_iff_ne]
    rintro rfl
    exact h hch
  obtain ⟨part, parts, hrest⟩ := List.exists_cons_of_ne_nil (List.splitOn_ne_nil '\n' rest)
  simp only [texts, hparts, hrest, List.dropLast_cons_cons, List.getLast?_cons_cons,
    List.map_cons, List.cons_append]

/-- Where a line ends, the lines behind it begin anew. -/
theorem texts_append {front : List Char} (h : front = [] ∨ front.getLast? = some '\n')
    (rest : List Char) : texts (front ++ rest) = texts front ++ texts rest := by
  induction front using input_induction with
  | last line hline =>
    rcases h with rfl | h
    · rfl
    · exact absurd (List.mem_of_getLast? h) hline
  | ended line front hline ih =>
    have hfront : front = [] ∨ front.getLast? = some '\n' := by
      cases front with
      | nil => exact Or.inl rfl
      | cons ch front => simpa [List.getLast?_append] using h
    rw [List.append_assoc, List.cons_append, texts_append_newline hline,
      texts_append_newline hline, ih hfront, List.cons_append]

/-- So an input falls into what is in front of a line, the line with its end, and what is behind. -/
theorem texts_append_append {front back : List Char}
    (hfront : front = [] ∨ front.getLast? = some '\n') (hback : back = [] ∨ back.head? = some '\n')
    (line : List Char) :
    texts (front ++ line ++ back) =
      texts front ++ texts (line ++ back.take 1) ++ texts (back.drop 1) := by
  rw [List.append_assoc, texts_append hfront, List.append_assoc]
  congr 1
  rcases hback with rfl | hback
  · exact (List.append_nil _).symm
  · obtain ⟨rest, rfl⟩ := List.head?_eq_some_iff.1 hback
    have hline : line ++ ['\n'] = [] ∨ (line ++ ['\n']).getLast? = some '\n' :=
      Or.inr List.getLast?_concat
    rw [List.append_cons, texts_append hline]
    rfl

/-- No text that is entered has a newline. -/
theorem newline_not_mem_of_mem_texts (h : line ∈ texts input) : '\n' ∉ line := by
  induction input using input_induction with
  | last part hpart =>
    rw [texts_of_not_mem hpart] at h
    rwa [List.mem_singleton.1 (List.mem_of_mem_filter h)]
  | ended part rest hpart ih =>
    rw [texts_append_newline hpart] at h
    rcases List.mem_cons.1 h with rfl | h
    · exact mt mem_of_mem_withoutReturn hpart
    · exact ih h

theorem body_of_not_mem (h : '\n' ∉ line) : body line = line := by
  unfold body
  split
  · rename_i hreverse
    exact absurd (List.mem_reverse.1 (hreverse ▸ List.mem_cons_self)) h
  · rename_i hreverse
    exact absurd (List.mem_reverse.1 (hreverse ▸ List.mem_cons_self)) h
  · rfl

theorem body_append_newline (line : List Char) : body (line ++ ['\n']) = withoutReturn line := by
  unfold body withoutReturn
  rw [List.reverse_append, List.reverse_singleton, List.singleton_append]
  rcases List.eq_nil_or_concat line with rfl | ⟨front, ch, rfl⟩
  · rfl
  · by_cases hch : ch = '\r'
    · simp [hch]
    · simp [hch]

/-- The bytes of an input are told apart where its lines end. -/
theorem lines_encode_append_newline (h : '\n' ∉ line) (rest : List Char) :
    lines (Utf8.encode (line ++ '\n' :: rest)) =
      Utf8.encode (line ++ ['\n']) :: lines (Utf8.encode rest) := by
  have hnewline : Utf8.encode ['\n'] = [10] := rfl
  rw [List.append_cons, Utf8.encode_append, Utf8.encode_append, hnewline, List.append_assoc]
  exact lines_append_newline (mt Utf8.newline_mem_encode_iff.1 h) (Utf8.encode rest)

end

section

open Inspection (rendering reporting)

variable {c : Config} {out err : Sink} {input : List Char}

/-- One step of the prompt: a line without a backspace adds what is written for its text, and
leaves nothing else behind. -/
theorem inspect_cons {line : List Char} (hout : out.capacity = .unlimited)
    (herr : err.capacity = .unlimited) (hline : backspace ∉ body line) (rest : List (List UInt8)) :
    inspect c out err (Utf8.encode line :: rest) =
      inspect c (out.take (rendering c (body line))) (err.take (reporting (body line))) rest := by
  rw [inspect, Utf8.decode?_encode]
  simp only [entered?, edited?_of_not_mem hline, Inspection.ofText_of_unlimited hout herr,
    Inspection.rendering_eq, reporting]

/-- A session adds what is written for each of its lines, in order. -/
theorem inspect_lines (hout : out.capacity = .unlimited) (herr : err.capacity = .unlimited)
    (hinput : backspace ∉ input) :
    inspect c out err (lines (Utf8.encode input)) =
      (out.take ((texts input).flatMap (rendering c)),
        err.take ((texts input).flatMap reporting), .finished) := by
  induction input using input_induction generalizing out err with
  | last line hline =>
    rw [texts_of_not_mem hline]
    by_cases hnil : line = []
    · rw [hnil]
      rfl
    · have hbytes : Utf8.encode line ≠ [] := mt Utf8.encode_eq_nil_iff.1 hnil
      have hbody := body_of_not_mem hline
      rw [lines_of_not_mem (mt Utf8.newline_mem_encode_iff.1 hline) hbytes,
        inspect_cons hout herr (by rwa [hbody]), hbody]
      simp [inspect, hnil]
  | ended line rest hline ih =>
    have hbody := body_append_newline line
    have hfirst : backspace ∉ withoutReturn line := fun h =>
      hinput (List.mem_append_left _ (mem_of_mem_withoutReturn h))
    have hrest : backspace ∉ rest := fun h =>
      hinput (List.mem_append_right _ (List.mem_cons_of_mem _ h))
    rw [lines_encode_append_newline hline, inspect_cons hout herr (by rwa [hbody]), hbody,
      @ih (out.take _) (err.take _) hout herr hrest, texts_append_newline hline,
      List.flatMap_cons, List.flatMap_cons, Sink.take_take, Sink.take_take]

end

end Prompt

namespace Inspection

theorem accepted_out_ofText (c : Config) (text : List Char) :
    (ofText c text {} {}).out.accepted = rendering c text := by
  rw [out_ofText]
  rfl

theorem accepted_err_ofText (c : Config) (text : List Char) :
    (ofText c text {} {}).err.accepted = reporting text := by
  rw [ofText_of_unlimited rfl rfl, Sink.accepted_take]
  rfl

/-- Each report of lines that are inspected alone is a line, and its number is 1. -/
theorem heading_prefix_of_mem_reporting {texts : List (List Char)} (h : ∀ l ∈ texts, '\n' ∉ l) :
    ∀ report ∈ Prompt.lines (texts.flatMap reporting), heading 1 <+: report := by
  have hreporting : texts.flatMap reporting =
      reports 0 (texts.flatMap fun l => (Scan.ofText l).errors) := by
    rw [reports, List.flatMap_assoc]
    exact List.flatMap_congr fun l _ => encode_diagnostics (Scan.ofText l)
  rw [hreporting, lines_reports]
  intro report hreport
  obtain ⟨e, he, rfl⟩ := List.mem_map.1 hreport
  obtain ⟨l, hl, he⟩ := List.mem_flatMap.1 he
  rw [line_eq_one_of_mem_errors (h l hl) he, List.append_assoc]
  exact List.prefix_append _ _

/-- The plain list of a text without a newline has one line for each token that is shown. -/
theorem lines_rendering {c : Config} {text : List Char} (hformat : c.format = .text)
    (h : '\n' ∉ text) :
    Prompt.lines (rendering c text) = (Listing.shown c (Scan.ofText text).tokens).map
      fun t => Utf8.encode (t.entry.toList ++ ['\n']) := by
  have hshown : ∀ t ∈ Listing.shown c (Scan.ofText text).tokens, t ∈ (Scan.ofText text).tokens :=
    fun t ht => List.mem_of_mem_filter ht
  have hentries : rendering c text =
      Utf8.encode (Listing.entries (Listing.shown c (Scan.ofText text).tokens)) :=
    accepted_list_entries hformat (recordAll_diagnostics _)
  rw [hentries, Listing.lines_entries_iff hshown]
  exact fun t ht hnewline => h (Token.mem_of_mem_lexeme (hshown t ht) hnewline)

end Inspection

namespace CommandLine

/-- The surroundings where a text is entered at the prompt. -/
def Surroundings.entering (s : Surroundings) (input : List Char) : Surroundings :=
  { s with input := Utf8.encode input }

section

open Prompt (texts backspace)
open Inspection (rendering reporting)

variable {arguments : List String} {environment : String → Option String} {s : Surroundings}
  {options : Options} {c : Config} {input : List Char}

/-- The answer to a session is what is written for its lines. -/
theorem respond_entering (hrequest : Request.of arguments environment = .inspect options)
    (hfile : options.file = none)
    (hload : Config.load s.files s.userDirectory options.config = .ok c)
    (hinput : backspace ∉ input) :
    respond arguments environment (s.entering input) =
      ⟨0, ({} : Sink).take ((texts input).flatMap (rendering (options.apply c))),
        ({} : Sink).take ((texts input).flatMap reporting)⟩ := by
  have hlines : Prompt.inspect (options.apply c) {} {} (Prompt.lines (s.entering input).input) =
      (_, _, .finished) := Prompt.inspect_lines rfl rfl hinput
  rw [@respond_of_inspect _ _ (s.entering input) _ _ hrequest hload, hfile, inspect, hlines]
  rfl

/-- A request to inspect what is entered at the prompt, with any arguments and settings that make
sense. A session without a backspace ends with exit code 0. What is written on both streams is what
is written for each of its lines alone, in order, so that each report is headed by line 1, and a
plain list has one line for each token of a line that is shown. Whatever line, or other part, stands
between two ends of lines, it changes only what is written for itself: the lines in front of it and
behind it are answered as in sessions of their own. -/
theorem respond_prompt (hrequest : Request.of arguments environment = .inspect options)
    (hfile : options.file = none)
    (hload : Config.load s.files s.userDirectory options.config = .ok c) :
    let answered (input : List Char) := respond arguments environment (s.entering input)
    let alone (line : List Char) := Inspection.ofText (options.apply c) line {} {}
    (∀ input, backspace ∉ input →
      (answered input).code = 0 ∧
        (answered input).out.accepted =
          (texts input).flatMap (fun line => (alone line).out.accepted) ∧
        (answered input).err.accepted =
          (texts input).flatMap (fun line => (alone line).err.accepted) ∧
        (∀ report ∈ Prompt.lines (answered input).err.accepted,
          Utf8.encode "[line 1] ".toList <+: report) ∧
        ((options.apply c).format = .text → ∀ line ∈ texts input,
          Prompt.lines (alone line).out.accepted =
            (Listing.shown (options.apply c) (Scan.ofText line).tokens).map
              fun t => Utf8.encode (t.entry.toList ++ ['\n']))) ∧
      ∀ front line back, (front = [] ∨ front.getLast? = some '\n') →
        (back = [] ∨ back.head? = some '\n') → backspace ∉ front ++ line ++ back →
        (answered (front ++ line ++ back)).out.accepted =
            (answered front).out.accepted ++ (answered (line ++ back.take 1)).out.accepted ++
              (answered (back.drop 1)).out.accepted ∧
          (answered (front ++ line ++ back)).err.accepted =
            (answered front).err.accepted ++ (answered (line ++ back.take 1)).err.accepted ++
              (answered (back.drop 1)).err.accepted := by
  intro answered alone
  have hanswered : ∀ {input}, backspace ∉ input → answered input = _ :=
    fun hinput => respond_entering hrequest hfile hload hinput
  constructor
  · intro input hinput
    have hlines : ∀ line ∈ texts input, '\n' ∉ line :=
      fun line => Prompt.newline_not_mem_of_mem_texts
    simp only [hanswered hinput, alone, Sink.accepted_take, Inspection.accepted_out_ofText,
      Inspection.accepted_err_ofText]
    refine ⟨trivial, rfl, rfl, Inspection.heading_prefix_of_mem_reporting hlines, ?_⟩
    exact fun hformat line hline => Inspection.lines_rendering hformat (hlines line hline)
  · intro front line back hfront hback hinput
    obtain ⟨⟨hbefore, hline⟩, hrest⟩ :
        (backspace ∉ front ∧ backspace ∉ line) ∧ backspace ∉ back := by
      simpa only [List.mem_append, not_or] using hinput
    have hown : backspace ∉ line ++ back.take 1 := by
      rw [List.mem_append, not_or]
      exact ⟨hline, mt List.mem_of_mem_take hrest⟩
    have hbehind : backspace ∉ back.drop 1 := mt List.mem_of_mem_drop hrest
    simp only [hanswered hinput, hanswered hbefore, hanswered hown, hanswered hbehind,
      Sink.accepted_take, Prompt.texts_append_append hfront hback line, List.flatMap_append]
    exact ⟨rfl, rfl⟩

/-- A string that a line leaves open reaches neither the line in front of it nor the one behind. -/
theorem respond_prompt_open :
    let s : Surroundings := ⟨fun _ => .absent .notFound, none, []⟩
    let answered (input : List Char) := respond ["--hide-eof"] (fun _ => none) (s.entering input)
    let session (line : List Char) := ['1', '\r', '\n'] ++ line ++ ['\n', '@', '+']
    Request.of ["--hide-eof"] (fun _ => none) = .inspect { hideEof := true } ∧
      Config.load s.files none none = .ok {} ∧
      backspace ∉ session ['"', 'a'] ∧ backspace ∉ session ['-'] ∧
      (answered (session ['"', 'a'])).code = 0 ∧
      (answered (session ['"', 'a'])).out.accepted = Utf8.encode "NUMBER 1 1.0\nPLUS +\n".toList ∧
      (answered (session ['"', 'a'])).err.accepted =
        Utf8.encode ("[line 1] Error: Unterminated string.\n" ++
          "[line 1] Error: Unexpected character.\n").toList ∧
      (answered (session ['-'])).out.accepted =
        Utf8.encode "NUMBER 1 1.0\n".toList ++ (answered ['-', '\n']).out.accepted ++
          Utf8.encode "PLUS +\n".toList := by
  intro s answered session
  have hrequest : Request.of ["--hide-eof"] (fun _ => none) = .inspect { hideEof := true } := by
    decide +kernel
  have hload : Config.load s.files none none = .ok {} := rfl
  have hopen : backspace ∉ session ['"', 'a'] := by decide
  have hminus : backspace ∉ session ['-'] := by decide
  obtain ⟨hsession, hsplit⟩ := @respond_prompt ["--hide-eof"] (fun _ => none) s _ {} hrequest rfl
    hload
  obtain ⟨hcode, hout, herr, -, -⟩ := hsession _ hopen
  obtain ⟨-, hfront, -⟩ := hsession ['1', '\r', '\n'] (by decide)
  obtain ⟨-, hback, -⟩ := hsession ['@', '+'] (by decide)
  obtain ⟨hreplaced, -⟩ := hsplit ['1', '\r', '\n'] ['-'] ['\n', '@', '+'] (Or.inr rfl)
    (Or.inr rfl) hminus
  refine ⟨hrequest, hload, hopen, hminus, hcode, hout.trans (by decide +kernel),
    herr.trans (by decide +kernel), hreplaced.trans ?_⟩
  congr 1
  · congr 1
    exact hfront.trans (by decide +kernel)
  · exact hback.trans (by decide +kernel)

end

end CommandLine

end LoxTokens
