import ProjectCompiler.Native.SchemeList
import ProjectCompiler.Pipeline.Basic

/-!
# Report — what the commands print

A report is a list of lines. Headings are underlined, facts stand in two columns, and everything is
indented by two blanks.
-/

namespace ProjectCompiler

namespace Report

/-! ## Layout -/

/-- The text of all lines, each with its end. -/
def print (lines : List String) : String :=
  String.join (lines.map (· ++ "\n"))

def indented (text : String) : String :=
  "  " ++ text

/-- Blanks behind a text up to a width. -/
def padded (width : Nat) (text : String) : String :=
  text ++ String.ofList (List.replicate (width - text.length) ' ')

def heading (text : String) : List String :=
  [indented text, indented (String.ofList (List.replicate text.length '─'))]

def fact (name value : String) : String :=
  indented (padded 12 name ++ value)

def numbered (texts : List String) : List String :=
  texts.zipIdx.map fun (text, position) => indented s!"{position + 1}. {text}"

def bullet (text : String) : String :=
  indented s!"- {text}"

def orNone (texts : List String) : String :=
  if texts.isEmpty then "(none)" else ", ".intercalate texts

/-! ## Reports of the commands -/

def check (manifestPath : String) (project : Project) : List String :=
  [s!"✓ {manifestPath} is valid",
    "",
    fact "Project" project.name,
    fact "Configs" (toString project.configurations.length),
    fact "Targets" (toString project.targets.length),
    fact "Schemes" (toString (project.targets.flatMap Target.schemes).length)]

def target (target : Target) : List String :=
  let host := match target.host with
    | some name => s!", hosted by {name}"
    | none => ""
  bullet (s!"{target.name} ({target.type.tag}, {target.platform.tag} {target.deploymentTarget}" ++
      host ++ ")") ::
    target.schemes.map fun scheme => s!"      └─ scheme {scheme.name}"

def info (manifestPath : String) (project : Project) (generators : List GeneratorInfo) :
    List String :=
  [""] ++ heading project.name ++
    [fact "Config" manifestPath,
      fact "Configs" (", ".intercalate (project.configurations.map BuildConfiguration.name)),
      fact "Default" project.defaultConfiguration,
      ""] ++
    heading "Targets" ++ project.targets.flatMap target ++ [""] ++
    heading "Generators" ++
    numbered (generators.map fun generator =>
      padded 18 generator.name ++ " " ++ generator.description)

def generate (outputPath : String) (summary : RunSummary) (saved : SchemeList) : List String :=
  let schemes := saved.schemes.map fun scheme => bullet scheme.name
  ["", indented s!"Wrote {outputPath}", ""] ++
    heading "Generators" ++ numbered summary.order ++ [""] ++
    heading "Schemes" ++ (if schemes.isEmpty then [indented "(none)"] else schemes) ++ [""] ++
    [fact "Translated" s!"{summary.translated} objects",
      fact "Suppressed" (orNone saved.suppressed)]

end Report

end ProjectCompiler
