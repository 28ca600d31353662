import LoxTokens.CommandLine.Answer
import LoxTokens.Proofs.Loading

/-!
# Which settings count

Settings are taken from one file at most. An explicit one, named by an argument or else by the
environment, is asked whether it is there or not; otherwise the one of the working directory if
something stands there, and otherwise the one of the user. Whatever is asked decides, even if no
settings can be had from it, and nothing that stands further below is seen in the answer. Arguments
change the format and hide the end of the text, and leave all other settings as they are.
-/

namespace LoxTokens

namespace Config

variable {files other : String → Entry} {userDirectory explicit asked : Option String}
  {below : List String}

end Config

namespace CommandLine

/-- The settings file that an argument names. -/
def Item.config? : Item → Option String
  | setting .config path => some path
  | _ => none

/-- The format that an argument names. -/
def Item.format? : Item → Option Format
  | setting .format name => Format.ofName? name
  | _ => none

/-- Options are others with what arguments say in addition. -/
structure Options.Extends (o : Options) (items : List Item) (extended : Options) : Prop where
  /-- A settings file is named only once. -/
  config_eq : extended.config = o.config.or (items.findSome? Item.config?)
  /-- So is a format. -/
  format_eq : extended.format = o.format.or (items.findSome? Item.format?)
  /-- The end of the text is hidden if that is asked for. -/
  hideEof_eq : extended.hideEof = (o.hideEof || items.contains (.switch .hideEof))

namespace Options

variable {o extended : Options} {item : Item} {items : List Item}
  {environment : String → Option String}

/-- What arguments lead to: another request than to inspect something, or more options. -/
inductive Outcome (o : Options) (items : List Item) : Except Request Options → Prop where
  | ended {request : Request} (h : ∀ options, request ≠ .inspect options) :
      Outcome o items (.error request)
  | extended {extended : Options} (h : o.Extends items extended) : Outcome o items (.ok extended)

/-- What is added first stays in front of what is added later. -/
theorem Extends.cons {between : Options} (hfirst : o.Extends [item] between)
    (hrest : between.Extends items extended) : o.Extends (item :: items) extended := by
  refine ⟨?_, ?_, ?_⟩
  · rw [hrest.config_eq, hfirst.config_eq, Option.or_assoc, ← List.findSome?_append]
    rfl
  · rw [hrest.format_eq, hfirst.format_eq, Option.or_assoc, ← List.findSome?_append]
    rfl
  · rw [hrest.hideEof_eq, hfirst.hideEof_eq, Bool.or_assoc]
    simp

theorem Outcome.cons {said : Except Request Options} {next : Options → Except Request Options}
    (hsaid : o.Outcome [item] said)
    (hnext : ∀ between : Options, between.Outcome items (next between)) :
    o.Outcome (item :: items) (said >>= next) := by
  cases hsaid with
  | ended h => exact .ended h
  | @extended between hfirst =>
    have hrest := hnext between
    change o.Outcome (item :: items) (next between)
    cases hlast : next between with
    | error request =>
      rw [hlast] at hrest
      cases hrest with
      | ended h => exact .ended h
    | ok extended =>
      rw [hlast] at hrest
      cases hrest with
      | extended h => exact .extended (hfirst.cons h)

end Options

section

variable {options : Options} {s : Surroundings} {asked : Option String} {below : List String}
  {out err : Sink}

end

end CommandLine

end LoxTokens
