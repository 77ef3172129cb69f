import Multipass.Prompt.Context
import Multipass.Text.Blank
import Multipass.Text.Find

/-!
# Prompt templates

A template falls into literal text and placeholders, which are names in double braces. How it
falls depends on the template alone, and the pieces put together are the template again. Each
placeholder with a known name gives way to its value; values are not looked into, and all else
stays as written. A prompt whose template names none of the inputs is followed by all of them.
-/

namespace Multipass

open Text

namespace Template

/-- A piece of a template: text that stays, or a placeholder with the name between its braces. -/
inductive Piece where
  | literal (s : List Char)
  | placeholder (name : List Char)
  deriving DecidableEq, Repr

/-- What opens a placeholder. -/
def opening : List Char := ['\x7b', '\x7b']

/-- What closes a placeholder. -/
def closing : List Char := ['\x7d', '\x7d']

/-- A piece as it is written. -/
def Piece.written : Piece → List Char
  | .literal s => s
  | .placeholder name => opening ++ name ++ closing

/-- The text behind a found pattern is shorter. -/
theorem length_of_splitAt? {pattern s before after : List Char} (hp : pattern ≠ [])
    (h : splitAt? pattern s = some (before, after)) : after.length < s.length := by
  have := congrArg List.length (eq_append_of_splitAt? h)
  have : 0 < pattern.length := List.length_pos_iff.2 hp
  simp at *
  omega

/-- The pieces of a template. An opening without a closing behind it is text. -/
def pieces (template : List Char) : List Piece :=
  match h : splitAt? opening template with
  | none => [.literal template]
  | some (before, after) =>
    match h' : splitAt? closing after with
    | none => [.literal template]
    | some (name, rest) =>
      have : rest.length < template.length :=
        Nat.lt_trans (length_of_splitAt? (by decide) h') (length_of_splitAt? (by decide) h)
      .literal before :: .placeholder name :: pieces rest
termination_by template.length

/-- A piece with its placeholder replaced, if the name in it is known. -/
def Piece.filled (value : String → Option String) : Piece → List Char
  | .literal s => s
  | .placeholder name =>
    match value (String.ofList (trimChars name)) with
    | some s => s.toList
    | none => opening ++ name ++ closing

/-- A template with its placeholders replaced. -/
def fill (template : String) (value : String → Option String) : String :=
  String.ofList ((pieces template.toList).flatMap (Piece.filled value))

/-- The value of a placeholder in a context. -/
def value (ctx : InvocationContext) : String → Option String
  | "path" => some ctx.path
  | "language" => some (ctx.language.getD "unknown")
  | "source" => some (ctx.source.getD "")
  | "parsed" => some (ctx.parsed.getD "")
  | "previous_results" => some (ctx.previous.getD "")
  | "context" => some ctx.combined
  | _ => none

/-- The names of the placeholders that stand for inputs. -/
def contentNames : List String :=
  ["source", "parsed", "previous_results", "context"]

/-- Holds of a template in which the placeholder of an input is written, without blanks. -/
def namesContent (template : String) : Bool :=
  contentNames.any fun name =>
    contains template (String.ofList (opening ++ name.toList ++ closing))

/-- The prompt of a template in a context. -/
def prompt (template : String) (ctx : InvocationContext) : String :=
  let filled := fill template (value ctx)
  if namesContent template || ctx.combined.isEmpty then filled
  else filled ++ InvocationContext.gap ++ ctx.combined

end Template

end Multipass
