import LoxTokens.Config.Reading

/-!
# Settings that cannot be had

At most one file is asked for settings. They cannot be had from it if nothing stands there, if what
stands there cannot be read as a text, or if the text is no settings. The second is taken for a
failure to read or write, like any other of that kind, and not for one of the settings.
-/

namespace LoxTokens

/-- What stands there is a directory, cannot be opened or read, or is a file with bytes of no
text. -/
inductive Entry.Unreadable : Entry → Prop
  | directory : Unreadable .directory
  | closed (cause : Cause) : Unreadable (.closed cause)
  | file {bytes : List UInt8} (h : ∀ text, bytes ≠ Utf8.encode text) : Unreadable (.file bytes)

namespace Entry

/-- Nothing stands there, or what stands there cannot be read as a text or is one. -/
theorem cases_text (e : Entry) :
    e.isPresent = false ∨ e.Unreadable ∨ ∃ text, e = .file (Utf8.encode text) := by
  cases e with
  | absent => exact Or.inl rfl
  | directory => exact Or.inr (Or.inl .directory)
  | closed cause => exact Or.inr (Or.inl (.closed cause))
  | file bytes =>
    by_cases h : ∃ text, bytes = Utf8.encode text
    · obtain ⟨text, rfl⟩ := h
      exact Or.inr (Or.inr ⟨text, rfl⟩)
    · exact Or.inr (Or.inl (.file fun text htext => h ⟨text, htext⟩))

/-- It is there, but has no text for some cause. -/
theorem Unreadable.exists_contents_eq {e : Entry} (h : e.Unreadable) :
    e.isPresent = true ∧ ∃ cause, e.contents = .error cause := by
  cases hcontents : e.contents with
  | error cause => cases h <;> exact ⟨rfl, cause, rfl⟩
  | ok text =>
    rw [contents_eq_ok_iff] at hcontents
    subst hcontents
    cases h with
    | file hno => exact absurd rfl (hno text)

end Entry

namespace Config

/-- The file that is asked for settings, if any: an explicit one whether it is there or not, or else
the first of the usual places where something stands. -/
def chosen (files : String → Entry) (userDirectory explicit : Option String) : Option String :=
  explicit.or ((places userDirectory).find? fun path => (files path).isPresent)

variable {files : String → Entry} {userDirectory explicit : Option String} {path : String}
  {f : Failure}

/-- Only the chosen file can fail. -/
theorem load_eq_error_iff :
    load files userDirectory explicit = .error f ↔
      ∃ path ∈ chosen files userDirectory explicit, ofFile files path = .error f := by
  unfold chosen
  cases explicit with
  | some path => simp [load]
  | none =>
    rw [load, search, Option.none_or]
    cases (places userDirectory).find? fun path => (files path).isPresent <;> simp

theorem ofFile_of_absent (h : (files path).isPresent = false) :
    ofFile files path = .error (.settings ("Configuration file not found: " ++ path)) := by
  rw [ofFile, h]
  rfl

theorem ofFile_of_unreadable (h : (files path).Unreadable) :
    ∃ cause, ofFile files path = .error (.transfer cause) := by
  obtain ⟨hpresent, cause, hcontents⟩ := h.exists_contents_eq
  exact ⟨cause, by rw [ofFile, if_pos hpresent, hcontents]⟩

theorem ofFile_of_text {text : List Char} (h : files path = .file (Utf8.encode text)) :
    ofFile files path = ofText text := by
  have hpresent : (files path).isPresent = true := by
    rw [h]
    rfl
  rw [ofFile, if_pos hpresent, h, Entry.contents_encode]

/-- Text that is no settings is a failure of the settings. -/
theorem ofText_cases (text : List Char) :
    (∃ c, ofText text = .ok c) ∨ ∃ problem, ofText text = .error (.settings problem) := by
  unfold ofText
  split
  · exact Or.inl ⟨_, rfl⟩
  · exact Or.inr ⟨_, rfl⟩

/-- The exit code tells why settings cannot be had. It is 64 if nothing stands where they are asked
for or if the text there is no settings, but 74 if there is something that cannot be read as a
text. -/
theorem exitCode_load_iff {n : Nat} :
    (∃ f, load files userDirectory explicit = .error f ∧ f.exitCode = n) ↔
      ∃ path ∈ chosen files userDirectory explicit,
        n = 64 ∧ (files path).isPresent = false ∨
        n = 64 ∧ (∃ text, files path = .file (Utf8.encode text) ∧ ∀ c, ofText text ≠ .ok c) ∨
        n = 74 ∧ (files path).Unreadable := by
  constructor
  · rintro ⟨f, hf, rfl⟩
    obtain ⟨path, hpath, hf⟩ := load_eq_error_iff.1 hf
    refine ⟨path, hpath, ?_⟩
    rcases (files path).cases_text with habsent | hbytes | ⟨text, htext⟩
    · rw [ofFile_of_absent habsent] at hf
      cases hf
      exact Or.inl ⟨rfl, habsent⟩
    · obtain ⟨cause, hcause⟩ := ofFile_of_unreadable hbytes
      rw [hcause] at hf
      cases hf
      exact Or.inr (Or.inr ⟨rfl, hbytes⟩)
    · rw [ofFile_of_text htext] at hf
      have hno : ∀ c, ofText text ≠ .ok c := by
        intro c hc
        rw [hc] at hf
        cases hf
      refine Or.inr (Or.inl ⟨?_, text, htext, hno⟩)
      obtain ⟨c, hc⟩ | ⟨problem, hproblem⟩ := ofText_cases text
      · exact absurd hc (hno c)
      · rw [hproblem] at hf
        cases hf
        rfl
  · rintro ⟨path, hpath, ⟨rfl, habsent⟩ | ⟨rfl, text, htext, hno⟩ | ⟨rfl, hbytes⟩⟩
    · exact ⟨_, load_eq_error_iff.2 ⟨path, hpath, ofFile_of_absent habsent⟩, rfl⟩
    · obtain ⟨c, hc⟩ | ⟨problem, hproblem⟩ := ofText_cases text
      · exact absurd hc (hno c)
      · have hload := load_eq_error_iff.2 ⟨path, hpath, (ofFile_of_text htext).trans hproblem⟩
        exact ⟨_, hload, rfl⟩
    · obtain ⟨cause, hcause⟩ := ofFile_of_unreadable hbytes
      exact ⟨_, load_eq_error_iff.2 ⟨path, hpath, hcause⟩, rfl⟩

/-- Settings of bytes that are no text do not fail as settings. -/
theorem exitCode_load_bytes :
    ¬ ∀ f, load (fun _ => .file [0xFF]) none none = .error f → f.exitCode = 64 := by
  intro h
  have hdecode : Utf8.decode? [0xFF] = none := by decide +kernel
  have hload : load (fun _ => .file [0xFF]) none none = .error (.transfer .notUtf8) := by
    simp [load, search, places, ofFile, Entry.isPresent, Entry.contents, hdecode]
  exact absurd (h _ hload) (by decide)

end Config

end LoxTokens
