import LoxTokens.Proofs.Places

/-!
# Joined spans

To join spans is to take the least range around them, placed where it starts. Of two spans that
start together the first one gives the place, so the order matters for spans in general. It does not
for the spans of one scan: those stand in the text, where the start of a span decides its place.
-/

namespace LoxTokens

namespace Span

/-- A range lies within another one. -/
def Within (inner outer : Span) : Prop := outer.start ≤ inner.start ∧ inner.stop ≤ outer.stop

/-- A span runs from the first start of some spans to their last stop. -/
structure Around (ss : List Span) (s : Span) : Prop where
  /-- No span starts before it. -/
  start_le : ∀ a ∈ ss, s.start ≤ a.start
  /-- One of them starts with it. -/
  exists_start : ∃ a ∈ ss, a.start = s.start
  /-- No span stops behind it. -/
  le_stop : ∀ a ∈ ss, a.stop ≤ s.stop
  /-- One of them stops with it. -/
  exists_stop : ∃ a ∈ ss, a.stop = s.stop

/-- A span stands in a text: it covers a part of it. -/
def Placed (source : List Char) (s : Span) : Prop :=
  ∃ front text back, s.Covers source front text back

/-- An order and a bracketing in which spans are joined. -/
inductive Joining where
  /-- A span on its own. -/
  | one (s : Span)
  /-- What comes of two joinings, joined. -/
  | both (left right : Joining)

namespace Joining

/-- The spans that are joined, in order. -/
def spans : Joining → List Span
  | one s => [s]
  | both left right => left.spans ++ right.spans

/-- What comes of a joining. -/
def result : Joining → Span
  | one s => s
  | both left right => left.result.join right.result

end Joining

end Span

/-- The spans of an error: its place, and of a string the quote that opens it. -/
def LexError.spans : LexError → List Span
  | unexpectedCharacter _ span => [span]
  | unterminatedString opened span => [opened, span]

/-- The spans that a scan reports. -/
def Scan.spans (s : Scan) : List Span := s.tokens.map Token.span ++ s.errors.flatMap LexError.spans

namespace Span

variable {source : List Char} {ss : List Span} {a b c s : Span}

/-- The span from the same place to another stop. -/
def upTo (s : Span) (stop : Nat) : Span := { s with stop }

/-- A span that starts before the one on its left gives the place. -/
theorem join_of_lt (h : b.start < a.start) : a.join b = b.upTo (max a.stop b.stop) := by
  simp only [join, if_pos h, Nat.min_eq_right (Nat.le_of_lt h), upTo]

theorem join_of_le (h : a.start ≤ b.start) : a.join b = a.upTo (max a.stop b.stop) := by
  simp only [join, if_neg (Nat.not_lt.2 h), Nat.min_eq_left h, upTo]

/-- Where a span stops does not matter for the place of a join. -/
theorem upTo_join (a b : Span) (n : Nat) : (a.upTo n).join b = (a.join b).upTo (max n b.stop) := rfl

theorem join_upTo (a b : Span) (n : Nat) : a.join (b.upTo n) = (a.join b).upTo (max a.stop n) := rfl

theorem upTo_upTo (s : Span) (m n : Nat) : (s.upTo m).upTo n = s.upTo n := rfl

/-- Joins can be bracketed in any way. -/
theorem join_assoc (a b c : Span) : (a.join b).join c = a.join (b.join c) := by
  rcases Nat.lt_or_ge b.start a.start with hab | hab
  · rw [join_of_lt hab, upTo_join]
    rcases Nat.lt_or_ge c.start b.start with hbc | hbc
    · rw [join_of_lt hbc, join_upTo, join_of_lt (Nat.lt_trans hbc hab), upTo_upTo, upTo_upTo,
        Nat.max_assoc]
    · rw [join_of_le hbc, join_upTo, join_of_lt hab, upTo_upTo, upTo_upTo, Nat.max_assoc]
  · rw [join_of_le hab, upTo_join]
    rcases Nat.lt_or_ge c.start b.start with hbc | hbc
    · rw [join_of_lt hbc, join_upTo, Nat.max_assoc]
    · rw [join_of_le (Nat.le_trans hab hbc), join_of_le hbc, join_upTo, join_of_le hab, upTo_upTo,
        upTo_upTo, Nat.max_assoc]

theorem join_self (a : Span) : a.join a = a := by
  simp only [join, Nat.min_self, Nat.max_self, Nat.lt_irrefl, if_false]

theorem within_join_left (a b : Span) : a.Within (a.join b) :=
  ⟨Nat.min_le_left _ _, Nat.le_max_left _ _⟩

theorem within_join_right (a b : Span) : b.Within (a.join b) :=
  ⟨Nat.min_le_right _ _, Nat.le_max_right _ _⟩

theorem join_within (ha : a.Within s) (hb : b.Within s) : (a.join b).Within s :=
  ⟨Nat.le_min.2 ⟨ha.1, hb.1⟩, Nat.max_le.2 ⟨ha.2, hb.2⟩⟩

/-- A span stands in a text if it runs from one place in it to another one, not before it. -/
theorem placed_iff : s.Placed source ↔ ∃ front whole, front <+: whole ∧ whole <+: source ∧
    s = ⟨Utf8.size front, Utf8.size whole, lineBehind front, columnBehind front⟩ := by
  constructor
  · rintro ⟨front, text, back, hc⟩
    refine ⟨front, front ++ text, List.prefix_append _ _, ⟨back, hc.source_eq.symm⟩, ?_⟩
    rw [← hc.start_eq, ← hc.stop_eq, ← hc.line_eq, ← hc.column_eq]
  · rintro ⟨front, whole, ⟨text, rfl⟩, ⟨back, rfl⟩, rfl⟩
    exact ⟨front, text, back, covers_behind rfl⟩

/-- A span from a place in a text to one that is not before it stands in the text. -/
theorem placed_of_size_le {front whole : List Char} (hfront : front <+: source)
    (hwhole : whole <+: source) (h : Utf8.size front ≤ Utf8.size whole) :
    Placed source ⟨Utf8.size front, Utf8.size whole, lineBehind front, columnBehind front⟩ :=
  placed_iff.2 ⟨front, whole, Utf8.isPrefix_of_size_le hfront hwhole h, hwhole, rfl⟩

/-- The join of two spans in a text stands in it. -/
theorem Placed.join (ha : a.Placed source) (hb : b.Placed source) : (a.join b).Placed source := by
  obtain ⟨front, whole, hfront, hwhole, rfl⟩ := placed_iff.1 ha
  obtain ⟨front', whole', hfront', hwhole', rfl⟩ := placed_iff.1 hb
  have hle := Utf8.size_le_of_isPrefix hfront
  have hle' := Utf8.size_le_of_isPrefix hfront'
  obtain ⟨last, hlast, hstop⟩ : ∃ last, last <+: source ∧
      Utf8.size last = max (Utf8.size whole) (Utf8.size whole') := by
    rcases Nat.le_total (Utf8.size whole) (Utf8.size whole') with hw | hw
    · exact ⟨whole', hwhole', (Nat.max_eq_right hw).symm⟩
    · exact ⟨whole, hwhole, (Nat.max_eq_left hw).symm⟩
  rcases Nat.lt_or_ge (Utf8.size front') (Utf8.size front) with hlt | hge
  · rw [join_of_lt hlt, ← hstop]
    exact placed_of_size_le (hfront'.trans hwhole') hlast (by omega)
  · rw [join_of_le hge, ← hstop]
    exact placed_of_size_le (hfront.trans hwhole) hlast (by omega)

/-- In a text, where a span starts and stops decides its line and its column. -/
theorem Placed.eq (ha : a.Placed source) (hb : b.Placed source) (hstart : a.start = b.start)
    (hstop : a.stop = b.stop) : a = b := by
  obtain ⟨front, text, back, hc⟩ := ha
  obtain ⟨front', text', back', hc'⟩ := hb
  have hsource : front ++ (text ++ back) = front' ++ (text' ++ back') := by
    rw [← List.append_assoc, ← List.append_assoc, ← hc.source_eq, ← hc'.source_eq]
  have hsize : Utf8.size front = Utf8.size front' := by
    rw [← hc.start_eq, ← hc'.start_eq, hstart]
  obtain ⟨rfl, -⟩ := Utf8.append_inj_of_size hsource hsize
  have hline : a.line = b.line := hc.line_eq.trans hc'.line_eq.symm
  have hcolumn : a.column = b.column := hc.column_eq.trans hc'.column_eq.symm
  cases a
  cases b
  simp_all

/-- Joining what runs around some spans and what runs around others gives what runs around all. -/
theorem Around.join {ss' : List Span} (ha : a.Around ss) (hb : b.Around ss') :
    (a.join b).Around (ss ++ ss') where
  start_le := List.forall_mem_append.2
    ⟨fun s hs => Nat.le_trans (Nat.min_le_left _ _) (ha.start_le s hs),
      fun s hs => Nat.le_trans (Nat.min_le_right _ _) (hb.start_le s hs)⟩
  exists_start := by
    rcases Nat.le_total a.start b.start with hle | hle
    · obtain ⟨s, hs, hstart⟩ := ha.exists_start
      exact ⟨s, List.mem_append_left _ hs, hstart.trans (Nat.min_eq_left hle).symm⟩
    · obtain ⟨s, hs, hstart⟩ := hb.exists_start
      exact ⟨s, List.mem_append_right _ hs, hstart.trans (Nat.min_eq_right hle).symm⟩
  le_stop := List.forall_mem_append.2
    ⟨fun s hs => Nat.le_trans (ha.le_stop s hs) (Nat.le_max_left _ _),
      fun s hs => Nat.le_trans (hb.le_stop s hs) (Nat.le_max_right _ _)⟩
  exists_stop := by
    rcases Nat.le_total a.stop b.stop with hle | hle
    · obtain ⟨s, hs, hstop⟩ := hb.exists_stop
      exact ⟨s, List.mem_append_right _ hs, hstop.trans (Nat.max_eq_right hle).symm⟩
    · obtain ⟨s, hs, hstop⟩ := ha.exists_stop
      exact ⟨s, List.mem_append_left _ hs, hstop.trans (Nat.max_eq_left hle).symm⟩

/-- The order of the spans does not matter for what runs around them. -/
theorem Around.perm {ss' : List Span} (h : s.Around ss) (hp : ss.Perm ss') : s.Around ss' where
  start_le := fun a ha => h.start_le a (hp.mem_iff.2 ha)
  exists_start := by
    obtain ⟨a, ha, hstart⟩ := h.exists_start
    exact ⟨a, hp.mem_iff.1 ha, hstart⟩
  le_stop := fun a ha => h.le_stop a (hp.mem_iff.2 ha)
  exists_stop := by
    obtain ⟨a, ha, hstop⟩ := h.exists_stop
    exact ⟨a, hp.mem_iff.1 ha, hstop⟩

/-- Only one span of a text runs around some of its spans. -/
theorem Around.eq (ha : a.Around ss) (hb : b.Around ss) (hpa : a.Placed source)
    (hpb : b.Placed source) : a = b := by
  obtain ⟨s, hs, hstart⟩ := ha.exists_start
  obtain ⟨s', hs', hstart'⟩ := hb.exists_start
  obtain ⟨l, hl, hstop⟩ := ha.exists_stop
  obtain ⟨l', hl', hstop'⟩ := hb.exists_stop
  apply hpa.eq hpb
  · exact Nat.le_antisymm (hstart' ▸ ha.start_le s' hs') (hstart ▸ hb.start_le s hs)
  · exact Nat.le_antisymm (hstop ▸ hb.le_stop l hl) (hstop' ▸ ha.le_stop l' hl')

namespace Joining

/-- What comes of a joining runs around the spans that are joined. -/
theorem around (t : Joining) : t.result.Around t.spans := by
  induction t with
  | one s =>
    have hmem : s ∈ (one s).spans := List.mem_singleton_self s
    refine ⟨fun a ha => ?_, ⟨s, hmem, rfl⟩, fun a ha => ?_, ⟨s, hmem, rfl⟩⟩
    · rw [List.mem_singleton.1 ha]
      exact Nat.le_refl _
    · rw [List.mem_singleton.1 ha]
      exact Nat.le_refl _
  | both left right ihl ihr => exact ihl.join ihr

/-- It stands in the text in which they stand. -/
theorem placed (t : Joining) (h : ∀ s ∈ t.spans, s.Placed source) : t.result.Placed source := by
  induction t with
  | one s => exact h s List.mem_cons_self
  | both left right ihl ihr =>
    obtain ⟨hl, hr⟩ := List.forall_mem_append.1 h
    exact (ihl hl).join (ihr hr)

/-- Spans can be joined, whichever they are, if there is one. -/
theorem exists_spans_eq (h : ss ≠ []) : ∃ t : Joining, t.spans = ss := by
  induction ss with
  | nil => exact absurd rfl h
  | cons s ss ih =>
    cases ss with
    | nil => exact ⟨one s, rfl⟩
    | cons s' ss =>
      obtain ⟨t, ht⟩ := ih (List.cons_ne_nil _ _)
      exact ⟨both (one s) t, congrArg (s :: ·) ht⟩

end Joining

/-- The span of the end of a text stands in it. -/
theorem placed_end (source : List Char) :
    (between (Location.after {} source) (Location.after {} source)).Placed source := by
  have hend := between_after source []
  rw [Location.after_nil] at hend
  rw [hend]
  exact ⟨source, [], [], covers_behind (by simp)⟩

/-- Every span that a scan reports stands in the text. -/
theorem placed_of_mem_spans (h : s ∈ (Scan.ofText source).spans) : s.Placed source := by
  rw [Scan.ofText_eq_ofPieces, Scan.ofPieces, flatMap_text_pieces] at h
  rcases List.mem_append.1 h with h | h
  · obtain ⟨t, ht, rfl⟩ := List.mem_map.1 h
    rcases List.mem_append.1 ht with ht | ht
    · obtain ⟨front, back, hc, -⟩ := covers_of_mem_tokensFrom ht
      exact ⟨front, _, back, hc⟩
    · rw [List.mem_singleton.1 ht]
      exact placed_end source
  · obtain ⟨e, he, hs⟩ := List.mem_flatMap.1 h
    cases e with
    | unexpectedCharacter ch span =>
      obtain rfl := List.mem_singleton.1 hs
      obtain ⟨front, back, hc⟩ := covers_of_unexpectedCharacter_mem he
      exact ⟨front, _, back, hc⟩
    | unterminatedString opened span =>
      obtain ⟨ps, body, -, -, hc, hspan⟩ := covers_of_unterminatedString_mem he
      rcases List.mem_cons.1 hs with rfl | hs
      · exact ⟨_, _, body, hc⟩
      · rw [List.mem_singleton.1 hs, hspan]
        exact placed_end source

/-- Joins can be bracketed in any way, a span joined with itself is that span, and the range of a
join is the least one around both. The spans that a scan reports can be joined in any order too:
what comes of them covers the text from their first start to their last stop. -/
theorem join_reported :
    (∀ a b c : Span, (a.join b).join c = a.join (b.join c)) ∧
    (∀ a : Span, a.join a = a) ∧
    (∀ a b : Span, a.start ≤ a.stop → b.start ≤ b.stop →
      (a.join b).start ≤ (a.join b).stop ∧ a.Within (a.join b) ∧ b.Within (a.join b) ∧
        ∀ r : Span, a.Within r → b.Within r → (a.join b).Within r) ∧
    ∀ (source : List Char) (ss : List Span), ss ≠ [] →
      (∀ s ∈ ss, s ∈ (Scan.ofText source).spans) →
      ∃ joined front text back,
        (∀ t : Joining, t.spans.Perm ss → t.result = joined) ∧ joined.Around ss ∧
        joined.Covers source front text back ∧
        joined.slice? (String.ofList source) = some (String.ofList text) := by
  refine ⟨join_assoc, join_self, fun a b ha _ => ?_, fun source ss hne hss => ?_⟩
  · have hleft := within_join_left a b
    exact ⟨Nat.le_trans hleft.1 (Nat.le_trans ha hleft.2), hleft, within_join_right a b,
      fun r => join_within⟩
  · obtain ⟨t, rfl⟩ := Joining.exists_spans_eq hne
    have hplaced : ∀ s ∈ t.spans, s.Placed source := fun s hs => placed_of_mem_spans (hss s hs)
    obtain ⟨front, text, back, hc⟩ := t.placed hplaced
    refine ⟨t.result, front, text, back, fun u hu => ?_, t.around, hc, hc.slice?⟩
    have hu' : ∀ s ∈ u.spans, s.Placed source := fun s hs => hplaced s (hu.mem_iff.1 hs)
    exact (u.around.perm hu).eq t.around (u.placed hu') (t.placed hplaced)

/-- The end of a string that is not closed is the end of the text, and the quote that opens it comes
after a character that starts nothing. -/
theorem join_reported_open :
    let source := ['@', '\n', '"', 'é']
    let stray : Span := ⟨0, 1, 1, 1⟩
    let opened : Span := ⟨2, 3, 2, 1⟩
    let last : Span := ⟨5, 5, 2, 3⟩
    [last, opened, stray] ≠ [] ∧
      (∀ s ∈ [last, opened, stray], s ∈ (Scan.ofText source).spans) ∧
      (Joining.both (.both (.one last) (.one opened)) (.one stray)).result =
        (Joining.both (.one stray) (.both (.one opened) (.one last))).result := by
  intro source stray opened last
  have hne : [last, opened, stray] ≠ [] := List.cons_ne_nil _ _
  have hspans : ∀ s ∈ [last, opened, stray], s ∈ (Scan.ofText source).spans := by decide +kernel
  obtain ⟨joined, -, -, -, hany, -⟩ := join_reported.2.2.2 source _ hne hspans
  refine ⟨hne, hspans, (hany _ (List.Perm.refl _)).trans (hany _ ?_).symm⟩
  decide

end Span

end LoxTokens
