/-!
# Kind — the closed vocabularies of a project

Products, platforms, languages, scheme actions and the policy for test targets each have a fixed
set of tags, the words by which they are written in files and messages. A product type is open:
a tag without a meaning here is kept as it is, and a back end decides about it later.
-/

namespace ProjectCompiler

/-- A finite vocabulary: its members in order, each with the word for it. -/
class Tagged (α : Type) where
  members : List α
  tag : α → String

namespace Tagged

variable {α : Type} [Tagged α]

def ofTag? (word : String) : Option α :=
  (members : List α).find? fun member => tag member == word

end Tagged

/-! ## Product types -/

inductive TargetType
  | application
  | unitTestBundle
  | framework
  | staticLibrary
  | other (tag : String)
  deriving DecidableEq, Repr, Inhabited

namespace TargetType

def tag : TargetType → String
  | application => "application"
  | unitTestBundle => "unit-test-bundle"
  | framework => "framework"
  | staticLibrary => "static-library"
  | other tag => tag

def ofTag (word : String) : TargetType :=
  if word = "application" then application
  else if word = "unit-test-bundle" then unitTestBundle
  else if word = "framework" then framework
  else if word = "static-library" then staticLibrary
  else other word

def isOther : TargetType → Bool
  | other _ => true
  | _ => false

theorem tag_ofTag (word : String) : (ofTag word).tag = word := by
  unfold ofTag
  split
  · simp_all [tag]
  split
  · simp_all [tag]
  split
  · simp_all [tag]
  split
  · simp_all [tag]
  · rfl

end TargetType

/-! ## Platforms -/

inductive Platform
  | ios
  | macos
  | tvos
  | watchos
  deriving DecidableEq, Repr, Inhabited

def Platform.tag : Platform → String
  | ios => "ios"
  | macos => "macos"
  | tvos => "tvos"
  | watchos => "watchos"

instance : Tagged Platform where
  members := [.ios, .macos, .tvos, .watchos]
  tag := Platform.tag

/-! ## Languages -/

inductive Language
  | objc
  | swift
  deriving DecidableEq, Repr, Inhabited

def Language.tag : Language → String
  | objc => "objc"
  | swift => "swift"

instance : Tagged Language where
  members := [.objc, .swift]
  tag := Language.tag

/-! ## Test targets -/

/-- How a target's test bundle is picked when several name it as their host. -/
inductive TestTargetPolicy
  | unique
  | firstMatch
  deriving DecidableEq, Repr, Inhabited

def TestTargetPolicy.tag : TestTargetPolicy → String
  | unique => "unique"
  | firstMatch => "first-match"

instance : Tagged TestTargetPolicy where
  members := [.unique, .firstMatch]
  tag := TestTargetPolicy.tag

/-! ## Scheme actions -/

inductive SchemeAction
  | test
  | launch
  | profile
  | analyze
  | archive
  deriving DecidableEq, Repr, Inhabited

namespace SchemeAction

def all : List SchemeAction :=
  [test, launch, profile, analyze, archive]

def tag : SchemeAction → String
  | test => "test"
  | launch => "launch"
  | profile => "profile"
  | analyze => "analyze"
  | archive => "archive"

end SchemeAction

instance : Tagged SchemeAction where
  members := SchemeAction.all
  tag := SchemeAction.tag

end ProjectCompiler
