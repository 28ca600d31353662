import Mathlib.Data.List.Nodup
import LoxTokens.Config.Reading
import LoxTokens.Proofs.Toml.Documents

/-!
# Settings are read back

A settings file sets some settings and may leave out those that are as they would be anyway, in any
order and among names that stand for nothing. Whatever the settings are, there is a text that sets
them so, and from every such text they are read back, each from its own name.
-/

namespace LoxTokens.Config

open Toml (Value Entries)

/-- The settings, each with its name. -/
def toEntries (c : Config) : Entries :=
  [("format", .string c.format.name), ("show_eof", .boolean c.showEof),
    ("prompt", .string c.prompt), ("history", .boolean c.history)]

/-- What the settings are if nothing is set. -/
def defaultEntries : Entries :=
  [("format", .string "text"), ("show_eof", .boolean true), ("prompt", .string "> "),
    ("history", .boolean true)]

/-- Names and values set the settings. -/
structure SetBy (c : Config) (entries : Entries) : Prop where
  /-- No name has two values. -/
  nodup : (entries.map Prod.fst).Nodup
  /-- A setting has the value of its name. -/
  value_eq : ∀ s ∈ c.toEntries, ∀ v, (s.1, v) ∈ entries → v = s.2
  /-- Without one it is as it would be anyway. -/
  default_of_missing : ∀ s ∈ c.toEntries, s.1 ∉ entries.map Prod.fst → s ∈ defaultEntries

/-- A text is a document that sets the settings. -/
def Written (c : Config) (text : List Char) : Prop :=
  ∃ entries, c.SetBy entries ∧ Toml.DocumentText entries text

variable {c : Config} {entries : Entries} {text : List Char}

/-- A setting is what all values of its name are read as, or the default if there are none. -/
theorem setting_eq_some {α : Type} {name : String} {read : Value → Option α} {default x : α}
    (hread : ∀ v, (name, v) ∈ entries → read v = some x)
    (hdefault : name ∉ entries.map Prod.fst → default = x) :
    setting entries name read default = some x := by
  cases hlookup : entries.lookup name with
  | none =>
    have hmissing : name ∉ entries.map Prod.fst := by
      rintro hmem
      obtain ⟨e, he, rfl⟩ := List.mem_map.1 hmem
      have hne := List.lookup_eq_none_iff.1 hlookup e he
      rw [bne_self_eq_false] at hne
      cases hne
    rw [setting, hlookup, hdefault hmissing]
  | some v =>
    obtain ⟨front, back, rfl, -⟩ := List.lookup_eq_some_iff.1 hlookup
    rw [setting, hlookup]
    exact hread v (by simp)

theorem ofName?_name (f : Format) : Format.ofName? f.name = some f := by
  cases f <;> rfl

/-- A setting is read from its own name, if it is there or not. -/
theorem SetBy.setting_eq (h : c.SetBy entries) {α : Type} {name : String} {v : Value}
    {read : Value → Option α} {default x : α} (hmem : (name, v) ∈ c.toEntries)
    (hread : read v = some x) (hdefault : ∀ w, (name, w) ∈ defaultEntries → read w = some default) :
    setting entries name read default = some x := by
  refine setting_eq_some (fun w hw => ?_) fun hmissing => ?_
  · rw [h.value_eq _ hmem w hw, hread]
  · have hsame := hdefault v (h.default_of_missing _ hmem hmissing)
    rw [hread] at hsame
    exact (Option.some.inj hsame).symm

/-- What is set is what is read. -/
theorem SetBy.ofEntries_eq (h : c.SetBy entries) : ofEntries entries = some c := by
  have hformat : setting entries "format" format? .text = some c.format :=
    h.setting_eq (v := .string c.format.name) (by simp [toEntries]) (ofName?_name c.format)
      (by simp [defaultEntries]; rfl)
  have hshowEof : setting entries "show_eof" truth? true = some c.showEof :=
    h.setting_eq (v := .boolean c.showEof) (by simp [toEntries]) rfl
      (by simp [defaultEntries, truth?])
  have hprompt : setting entries "prompt" text? "> " = some c.prompt :=
    h.setting_eq (v := .string c.prompt) (by simp [toEntries]) rfl
      (by simp [defaultEntries, text?])
  have hhistory : setting entries "history" truth? true = some c.history :=
    h.setting_eq (v := .boolean c.history) (by simp [toEntries]) rfl
      (by simp [defaultEntries, truth?])
  simp only [ofEntries, hformat, hshowEof, hprompt, hhistory]
  rfl

theorem setBy_toEntries (c : Config) : c.SetBy c.toEntries := by
  have hnodup : (c.toEntries.map Prod.fst).Nodup := by
    change ["format", "show_eof", "prompt", "history"].Nodup
    decide
  refine ⟨hnodup, fun s hs v hv => ?_, fun s hs hmissing => ?_⟩
  · exact congrArg Prod.snd (List.inj_on_of_nodup_map hnodup hv hs rfl)
  · exact absurd (List.mem_map_of_mem hs) hmissing

/-- Whatever the settings are, they can be written. -/
theorem exists_written (c : Config) : ∃ text, c.Written text := by
  have hbare : ∀ name ∈ ["format", "show_eof", "prompt", "history"], name.toList ≠ [] ∧
      (name.toList.all fun d => d.isAlphanum = true ∨ d = '_' ∨ d = '-') = true := by decide
  have hname : ∀ e ∈ c.toEntries, ∃ key, Toml.NameText e.1 key := by
    intro e he
    obtain ⟨hne, hchars⟩ := hbare e.1 (List.mem_map_of_mem he)
    exact ⟨_, .bare hne (List.all_iff_forall_prop.1 hchars)⟩
  have hvalue : ∀ e ∈ c.toEntries, ∃ text, Toml.ScalarText e.2 text := by
    have hstring (s : String) : ∃ text, Toml.ScalarText (.string s) text :=
      (Toml.exists_stringText s).imp fun _ => .string
    simp only [toEntries, List.forall_mem_cons]
    exact ⟨hstring _, ⟨_, .truth _⟩, hstring _, ⟨_, .truth _⟩, nofun⟩
  obtain ⟨text, htext⟩ := Toml.exists_documentText hname hvalue
  exact ⟨text, _, c.setBy_toEntries, htext⟩

/-- Settings are read back from every text that sets them, and there is such a text. -/
theorem texts_read_back (c : Config) :
    (∃ text, c.Written text) ∧ ∀ text, c.Written text → ofText text = .ok c := by
  refine ⟨c.exists_written, ?_⟩
  rintro text ⟨entries, hset, htext⟩
  rw [ofText, Toml.document_eq htext hset.nodup, Option.bind_some, hset.ofEntries_eq]

/-- Settings in another order, one of them left out, with escapes and among other names. -/
theorem texts_read_back_json :
    let c : Config := { format := .json, prompt := "é\"", history := false }
    let text := ("history=false # no\r\n\n x-1 = -9_0\nprompt\t=\"\\u00E9\\\"\"\n" ++
      "\"format\"=\"json\"").toList
    c.Written text ∧ ofText text = .ok c := by
  intro c text
  have hnothing : Toml.IsBlanks [] := nofun
  have hspace : Toml.IsBlanks [' '] := by simp [Toml.IsBlanks]
  have htab : Toml.IsBlanks ['\t'] := by simp [Toml.IsBlanks]
  have hremark : Toml.IsRemark "# no".toList :=
    Or.inr ⟨" no".toList, rfl, List.all_iff_forall_prop.1 (by decide)⟩
  have hnumber : Toml.IntegerText (-90) "-9_0".toList :=
    .minus ⟨'9', [('0', ['_', '0'])], by simp, rfl, rfl⟩
  have hprompt : Toml.StringText "é\"" "\"\\u00E9\\\"\"".toList :=
    ⟨[('é', "\\u00E9".toList), ('"', "\\\"".toList)], List.forall_mem_cons.2
      ⟨.four (by unfold Toml.CodePointText; decide), List.forall_mem_singleton.2
        (.short (by decide))⟩, rfl, rfl⟩
  have hfirst : Toml.LineText (some ("history", .boolean false)) _ :=
    .assignment hnothing (.bare (by decide) (List.all_iff_forall_prop.1 (by decide))) hnothing
      hnothing (.truth false) hspace hremark
  have hother : Toml.LineText (some ("x-1", .integer (-90))) _ :=
    .assignment hspace (.bare (by decide) (List.all_iff_forall_prop.1 (by decide))) hspace hspace
      (.integer hnumber (by decide) (by decide)) hnothing (Or.inl rfl)
  have hsecond : Toml.LineText (some ("prompt", .string "é\"")) _ :=
    .assignment hnothing (.bare (by decide) (List.all_iff_forall_prop.1 (by decide))) htab
      hnothing (.string hprompt) hnothing (Or.inl rfl)
  have hlast : Toml.LineText (some ("format", .string "json")) _ :=
    .assignment hnothing
      (.quoted (Toml.stringText_of_plain (List.all_iff_forall_prop.1 (by decide))))
      hnothing hnothing
      (.string (Toml.stringText_of_plain (List.all_iff_forall_prop.1 (by decide))))
      hnothing (Or.inl rfl)
  have hdocument : Toml.DocumentText _ text :=
    .line hfirst (Or.inr rfl) (.line (.empty hnothing (Or.inl rfl)) (Or.inl rfl)
      (.line hother (Or.inl rfl) (.line hsecond (Or.inl rfl) (.last hlast))))
  have hwritten : c.Written text := by
    refine ⟨_, ⟨by decide, ?_, ?_⟩, hdocument⟩
    · simp [toEntries, c, Format.name]
    · simp [toEntries, c, defaultEntries]
  exact ⟨hwritten, (texts_read_back c).2 text hwritten⟩

end LoxTokens.Config
