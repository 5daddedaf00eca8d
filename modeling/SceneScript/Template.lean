import SceneScript.Statement
import SceneScript.Text.Blank
import SceneScript.Text.Line

/-!
# Template

Texts with placeholders.  `{name}` stands for a field of a statement, `{{` and `}}` for a brace,
and everything else for itself.  Which names there are depends on the kind of statement, so a
template is compiled for a set of placeholders (`Placeholder`).  An error names the byte at which
it stands.

A template is scanned into marks, single characters and fields (`Template.scan`), and runs of
characters are then joined into literals (`Template.fuse`).
-/

namespace SceneScript

open Text

/-- The placeholders `φ` for values of type `β`. -/
class Placeholder (φ : Type) (β : outParam Type) where
  /-- The placeholder with a name. -/
  named? : String → Option φ
  /-- The name under which a placeholder is written. -/
  name   : φ → String
  /-- What a placeholder stands for. -/
  value  : φ → β → String

/-- The fields of a construction. -/
inductive ConstructField where
  | varType
  | varName
  | className
  | args
  deriving DecidableEq, Repr

/-- The fields of a call. -/
inductive InvokeField where
  | receiver
  | methodName
  | args
  deriving DecidableEq, Repr

/-- Arguments as a target language lists them. -/
def joinArgs (args : List String) : String :=
  ", ".intercalate args

instance : Placeholder ConstructField Construct where
  named?
    | "var_type"   => some .varType
    | "var_name"   => some .varName
    | "class_name" => some .className
    | "args"       => some .args
    | _            => none
  name
    | .varType   => "var_type"
    | .varName   => "var_name"
    | .className => "class_name"
    | .args      => "args"
  value
    | .varType,   c => c.varType
    | .varName,   c => c.varName
    | .className, c => c.className
    | .args,      c => joinArgs c.args

/-- The receiver of a call goes by two names. -/
instance : Placeholder InvokeField Invoke where
  named?
    | "var_name"    => some .receiver
    | "receiver"    => some .receiver
    | "method_name" => some .methodName
    | "args"        => some .args
    | _             => none
  name
    | .receiver   => "receiver"
    | .methodName => "method_name"
    | .args       => "args"
  value
    | .receiver,   i => i.receiver
    | .methodName, i => i.methodName
    | .args,       i => joinArgs i.args

/-- Why a template was refused, and the byte offset at which the fault stands. -/
inductive TemplateError where
  | unknownPlaceholder (name : String) (position : Nat)
  /-- A `{` that no `}` follows. -/
  | unclosed (position : Nat)
  /-- A `}` that closes nothing. -/
  | strayClose (position : Nat)
  deriving DecidableEq, Repr

/-- Where the fault stands. -/
def TemplateError.position : TemplateError → Nat
  | .unknownPlaceholder _ p => p
  | .unclosed p             => p
  | .strayClose p           => p

/-- The wording of a template error. -/
def TemplateError.message : TemplateError → String
  | .unknownPlaceholder name p =>
    "unknown placeholder '\x7b" ++ name ++ "\x7d' at position " ++ toString p
  | .unclosed p   => "unclosed placeholder at position " ++ toString p
  | .strayClose p => "unmatched '\x7d' at position " ++ toString p

/-- A part of a template: text as it is, or a field. -/
inductive Segment (φ : Type) where
  | literal (text : List Char)
  | field (f : φ)
  deriving DecidableEq, Repr

/-- A compiled template. -/
structure Template (φ : Type) where
  segments : List (Segment φ)
  deriving DecidableEq, Repr

namespace Template

/-- A character or a field. -/
inductive Mark (φ : Type) where
  | char (c : Char)
  | field (f : φ)
  deriving DecidableEq, Repr

variable {φ β : Type} [Placeholder φ β]

/-- `c` does not close a placeholder. -/
def staysInside (c : Char) : Bool :=
  c ≠ '}'

/-- The marks of a template text that starts at byte `pos`. -/
def scan (pos : Nat) : List Char → Except TemplateError (List (Mark φ))
  | []               => .ok []
  | '{' :: '{' :: cs => (scan (pos + 2) cs).map (.char '{' :: ·)
  | '}' :: '}' :: cs => (scan (pos + 2) cs).map (.char '}' :: ·)
  | '}' :: _         => .error (.strayClose pos)
  | '{' :: cs        =>
    match _ : cs.dropWhile staysInside with
    | []        => .error (.unclosed pos)
    | _ :: rest =>
      let name := String.ofList (trim (cs.takeWhile staysInside))
      match Placeholder.named? name with
      | none   => .error (.unknownPlaceholder name pos)
      | some f =>
        (scan (pos + byteLength (cs.takeWhile staysInside) + 2) rest).map (.field f :: ·)
  | c :: cs => (scan (pos + c.utf8Size) cs).map (.char c :: ·)
termination_by s => s.length
decreasing_by
  · simp only [List.length_cons]; omega
  · simp only [List.length_cons]; omega
  · rename_i h
    have l := congrArg List.length h
    have m := (List.dropWhile_sublist (l := cs) staysInside).length_le
    simp only [List.length_cons] at l ⊢
    omega
  · simp

/-- Joins runs of characters into literals. -/
def fuse : List (Mark φ) → List (Segment φ)
  | []             => []
  | .field f :: ms => .field f :: fuse ms
  | .char c :: ms  =>
    match fuse ms with
    | .literal text :: ss => .literal (c :: text) :: ss
    | ss                  => .literal [c] :: ss

/-- Compiles a template text. -/
def compile (source : String) : Except TemplateError (Template φ) :=
  (scan 0 source.toList).map fun ms => ⟨fuse ms⟩

/-- A segment with the fields of `b` filled in. -/
def expandSegment (b : β) : Segment φ → List Char
  | .literal text => text
  | .field f      => (Placeholder.value f b).toList

/-- The template with the fields of `b` filled in. -/
def expand (t : Template φ) (b : β) : String :=
  String.ofList (t.segments.flatMap (expandSegment b))

end Template

end SceneScript
