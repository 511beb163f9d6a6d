import ProjectCompiler.Json.Basic
import ProjectCompiler.Project.Kind

/-!
# KindJson — tags in JSON values

A member of a closed vocabulary is written as its tag, or as an object whose only name is the tag
and whose value is null. A product type is any text.
-/

namespace ProjectCompiler

/-- Why a JSON value is no member of a vocabulary. -/
inductive TagFault
  | unknownTag (word : String) (expected : List String)
  | wrongShape
  deriving DecidableEq, Repr

namespace TagFault

/-- The tags to choose from, in words. -/
def choices (expected : List String) : String :=
  let quoted := expected.map fun tag => s!"`{tag}`"
  match quoted with
  | [] => "there are no variants"
  | [one] => s!"expected {one}"
  | [one, other] => s!"expected {one} or {other}"
  | _ => "expected one of " ++ ", ".intercalate quoted

def unknownTagMessage (word : String) (expected : List String) : String :=
  s!"unknown variant `{word}`, {choices expected}"

end TagFault

namespace Tagged

variable {α : Type} [Tagged α]

/-- The tags of a vocabulary in order. -/
def tags (α : Type) [Tagged α] : List String :=
  (members : List α).map tag

def ofWord (word : String) : Except TagFault α :=
  match ofTag? word with
  | some member => .ok member
  | none => .error (.unknownTag word (tags α))

def ofJson : Json → Except TagFault α
  | .str (some word) => ofWord word
  | .object [(some word, content)] => do
      let member ← ofWord word
      match content with
      | .null => return member
      | _ => throw .wrongShape
  | _ => throw .wrongShape

end Tagged

def TargetType.ofJson : Json → Except TagFault TargetType
  | .str (some word) => .ok (ofTag word)
  | _ => .error .wrongShape

/-- The policy in an options record, `unique` if it does not say. In an array it stands first and
alone; a policy that does not exist is noticed before what follows it. -/
def TestTargetPolicy.ofOptions : Json → Except TagFault TestTargetPolicy
  | .object members =>
      match (Json.named? members).bind (Json.member? · "test_target_policy") with
      | some none => .ok .unique
      | some (some json) => Tagged.ofJson json
      | none => .error .wrongShape
  | .array [] => .ok .unique
  | .array (json :: rest) => do
      let policy ← Tagged.ofJson json
      if rest.isEmpty then return policy else throw .wrongShape
  | _ => .error .wrongShape

end ProjectCompiler
