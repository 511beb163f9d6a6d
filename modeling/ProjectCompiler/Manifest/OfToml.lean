import ProjectCompiler.Manifest.Basic
import ProjectCompiler.Manifest.Decode
import ProjectCompiler.Toml.Document

/-!
# OfToml — a manifest from the table of a document

Each record of the manifest has a shape, which lists its fields, and a function that sets one field
of it by name.
-/

namespace ProjectCompiler

/-! ## Schemes -/

namespace SchemeEntry

def shape : RecordShape where
  name := "SchemeConfig"
  fields := [
    ("name", .required),
    ("configuration", .optional),
    ("test_configuration", .optional),
    ("launch_configuration", .optional),
    ("profile_configuration", .optional),
    ("analyze_configuration", .optional),
    ("archive_configuration", .optional)]

/-- The field that gives the configuration of an action. -/
def actionField (action : SchemeAction) : String :=
  action.tag ++ "_configuration"

def set (field : String) (found : Toml) (entry : SchemeEntry) : Decoded SchemeEntry := do
  match field with
  | "name" => return { entry with name := ← found.toText }
  | "configuration" => return { entry with configuration := some (← found.toText) }
  | _ =>
      match SchemeAction.all.find? fun action => actionField action = field with
      | some action =>
          return { entry with
            overrides := Entries.insert entry.overrides action (← found.toText) }
      | none =>
          found.ignore
          return entry

def ofToml : Toml → Decoded SchemeEntry :=
  shape.read set empty

end SchemeEntry

/-! ## Configurations -/

/-- The only field of a configuration is its settings. -/
def Settings.ofConfiguration : Toml → Decoded Settings :=
  RecordShape.read { name := "ConfigurationConfig", fields := [("settings", .defaulted)] }
    (fun field found settings => do
      if field = "settings" then found.toSettings
      else
        found.ignore
        return settings)
    Settings.empty

/-! ## Targets -/

namespace TargetEntry

def shape : RecordShape where
  name := "TargetConfig"
  fields := [
    ("name", .required),
    ("type", .required),
    ("platform", .optional),
    ("deployment_target", .optional),
    ("language", .optional),
    ("include_files", .defaulted),
    ("exclude_files", .defaulted),
    ("host", .optional),
    ("settings", .defaulted),
    ("configurations", .defaulted),
    ("schemes", .defaulted)]

def set (field : String) (found : Toml) (entry : TargetEntry) : Decoded TargetEntry := do
  match field with
  | "name" => return { entry with name := ← found.toText }
  | "type" => return { entry with type := TargetType.ofTag (← found.toText) }
  | "platform" => return { entry with platform := some (← found.toTag) }
  | "deployment_target" => return { entry with deploymentTarget := some (← found.toText) }
  | "language" => return { entry with language := some (← found.toTag) }
  | "include_files" => return { entry with includeFiles := ← found.toTexts }
  | "exclude_files" => return { entry with excludeFiles := ← found.toTexts }
  | "host" => return { entry with host := some (← found.toText) }
  | "settings" => return { entry with settings := ← found.toSettings }
  | "configurations" =>
      return { entry with configurations := ← found.toMap Settings.ofConfiguration }
  | "schemes" => return { entry with schemes := ← found.toList SchemeEntry.ofToml }
  | _ =>
      found.ignore
      return entry

def ofToml : Toml → Decoded TargetEntry :=
  shape.read set empty

end TargetEntry

/-! ## The whole manifest -/

namespace Manifest

def projectShape : RecordShape where
  name := "ProjectConfig"
  fields := [
    ("name", .required),
    ("default_configuration", .optional),
    ("settings", .defaulted)]

def setProject (field : String) (found : Toml) (manifest : Manifest) : Decoded Manifest := do
  match field with
  | "name" => return { manifest with projectName := ← found.toText }
  | "default_configuration" =>
      return { manifest with defaultConfiguration := some (← found.toText) }
  | "settings" => return { manifest with settings := ← found.toSettings }
  | _ =>
      found.ignore
      return manifest

def optionsShape : RecordShape where
  name := "GeneratorSection"
  fields := [("test_target_policy", .defaulted)]

def setOption (field : String) (found : Toml) (manifest : Manifest) : Decoded Manifest := do
  match field with
  | "test_target_policy" => return { manifest with policy := ← found.toTag }
  | _ =>
      found.ignore
      return manifest

def shape : RecordShape where
  name := "Manifest"
  fields := [
    ("project", .required),
    ("configurations", .defaulted),
    ("targets", .defaulted),
    ("generator", .defaulted)]

def set (field : String) (found : Toml) (manifest : Manifest) : Decoded Manifest := do
  match field with
  | "project" => projectShape.read setProject manifest found
  | "configurations" =>
      return { manifest with configurations := ← found.toMap Settings.ofConfiguration }
  | "targets" => return { manifest with targets := ← found.toList TargetEntry.ofToml }
  | "generator" => optionsShape.read setOption manifest found
  | _ =>
      found.ignore
      return manifest

def ofToml : Toml → Decoded Manifest :=
  shape.read set empty

/-- Why a text holds no manifest. -/
inductive TextFault
  /-- It is no document of the format. -/
  | malformed
  | schema (fault : SchemaFault)
  deriving Repr

/-- The manifest that a text writes, valid or not. -/
def ofText (text : String) : Except TextFault Manifest :=
  match Toml.parse? text with
  | none => .error .malformed
  | some entries => (ofToml (.table entries)).mapError .schema

end Manifest

end ProjectCompiler
