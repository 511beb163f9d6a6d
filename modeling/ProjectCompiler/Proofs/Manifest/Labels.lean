import Mathlib.Data.Nat.Find
import ProjectCompiler.Proofs.Manifest.FirstViolation
import ProjectCompiler.Proofs.Manifest.TargetLines

/-!
# Labels — which pair of a text a label shows

What is wrong with a target is shown at its name or at its host. The label is looked for as a pair of a key
and a text, and the search knows nothing of targets: the project and schemes have names too, several targets
can name one host, and a pair can stand in a comment. So the label is there, at the line that it is meant for
or before it, and it is right exactly if no other pair has taken its place.

- `Manifest.LabelledBy`: a span that is looked for as a pair, next to the line that it is meant for;
- `Violation.target?`: the target that a violation is about, and `Manifest.exists_own` finds its passage;
- `Manifest.name_labels_ahead`: labels of repeated names, and of targets that lack something;
- `Manifest.host_labels_ahead`: labels of hosts.
-/

namespace ProjectCompiler

open Toml

namespace Manifest

variable {source sourceName : String} {manifest : Manifest}

/-! ## Pairs and lines -/

/-- The span stands at the text of the line or before it, and it is that of the line exactly if no pairs
take the place of this number before the pair of the line. -/
structure LabelledBy (source key text : String) (number : Nat) (line : Line) (span : Span) : Prop where
  selects : (line.valueSpan source key text).Selects source text
  ahead : span.offset ≤ (line.valueSpan source key text).offset
  right_iff : span = line.valueSpan source key text ↔
    Search.Leads (Span.pair key text "\"") source number (line.offset source)

theorem exists_labelledBy {key text : String} {line : Line} {number : Nat} {offsets : List Nat}
    (hselects : (line.valueSpan source key text).Selects source text)
    (hoccurs : ∀ offset ∈ offsets, Search.Occurs (Span.pair key text "\"") source offset)
    (hapart : Search.Apart (Span.pair key text "\"") offsets)
    (hoffset : offsets[number]? = some (line.offset source)) :
    ∃ span, Span.ofPair? source key text number = some span ∧
      LabelledBy source key text number line span := by
  obtain ⟨found, hfound, hle, hiff⟩ :=
    Search.exists_found_iff (Span.pair_ne_empty key text "\"") hoccurs hapart hoffset
  refine ⟨⟨found + key.utf8ByteSize + 4, text.utf8ByteSize⟩, ?_, hselects, ?_, ?_⟩
  · rw [Span.ofPair?, Span.ofQuotedPair?_eq, hfound]
    rfl
  · exact Nat.add_le_add_right (Nat.add_le_add_right hle _) _
  · rw [← hiff, Line.valueSpan, Span.mk.injEq]
    omega

/-- A label that is not right has another pair of the kind before its line. -/
theorem LabelledBy.exists_before {key text : String} {line : Line} {span : Span}
    (h : LabelledBy source key text 0 line span) (hwrong : span ≠ line.valueSpan source key text) :
    ∃ offset < line.offset source, Search.Occurs (Span.pair key text "\"") source offset := by
  have hleads := mt h.right_iff.2 hwrong
  rw [Search.leads_zero_iff] at hleads
  push Not at hleads
  obtain ⟨offset, hoccurs, hbefore⟩ := hleads
  exact ⟨offset, hbefore, hoccurs⟩

/-- A second label that is not right has two other pairs before its line. -/
theorem LabelledBy.exists_two_before {key text : String} {line : Line} {span : Span}
    (h : LabelledBy source key text 1 line span) (hwrong : span ≠ line.valueSpan source key text) :
    ∃ first second, Search.Occurs (Span.pair key text "\"") source first ∧
      Search.Occurs (Span.pair key text "\"") source second ∧
      first + (Span.pair key text "\"").utf8ByteSize ≤ second ∧ second < line.offset source := by
  have hleads := mt h.right_iff.2 hwrong
  rw [Search.leads_one_iff] at hleads
  push Not at hleads
  exact hleads

/-- A search for the first pair, which is meant for the line of a target. -/
theorem WrittenAt.exists_labelledBy (hplain : PlainTargets source) {key text : String} {number : Nat}
    {line : Line} (h : WrittenAt source number key text line) :
    ∃ span, Span.ofPair? source key text 0 = some span ∧ LabelledBy source key text 0 line span :=
  Manifest.exists_labelledBy (h.selects hplain) (List.forall_mem_singleton.2 (h.occurs hplain))
    (List.pairwise_singleton _ _) rfl

/-- A search for the second pair, which is meant for a line behind one that writes the same. -/
theorem WrittenAt.exists_second_labelledBy (hplain : PlainTargets source) {key text : String}
    (hkey : IsBare key) {earlier later : Nat} (hlt : earlier < later) {first second : Line}
    (hfirst : WrittenAt source earlier key text first)
    (hsecond : WrittenAt source later key text second) :
    ∃ span, Span.ofPair? source key text 1 = some span ∧ LabelledBy source key text 1 second span := by
  have hoccurs : ∀ offset ∈ [first.offset source, second.offset source],
      Search.Occurs (Span.pair key text "\"") source offset :=
    List.forall_mem_cons.2
      ⟨hfirst.occurs hplain, List.forall_mem_singleton.2 (hsecond.occurs hplain)⟩
  have hapart : Search.Apart (Span.pair key text "\"") [first.offset source, second.offset source] :=
    List.pairwise_pair.2 (offset_add_le hplain hkey hlt hfirst hsecond)
  exact Manifest.exists_labelledBy (hsecond.selects hplain) hoccurs hapart rfl

end Manifest

/-! ## Targets that something is wrong with -/

/-- The name of the one target that a violation is about. -/
def Violation.target? : Violation → Option String
  | blankProjectName => none
  | undeclaredDefault _ => none
  | duplicateTarget _ => none
  | missingHost target => some target
  | unwantedHost target _ _ => some target
  | unknownHost target _ => some target
  | nestedHost target _ => some target
  | missingPlatform target => some target
  | missingDeploymentTarget target => some target
  | undeclaredOverride target _ => some target

/-- A violation with a single label, which is looked for as a pair. -/
theorem Violation.labels_eq_singleton {violation : Violation} {source words : String}
    {found : Option Span} {span : Span} (hplaces : violation.places source = [(words, found)])
    (hfound : found = some span) : violation.labels source = [⟨words, span⟩] := by
  subst hfound
  rw [labels, hplaces]
  rfl

namespace Manifest

variable {source sourceName : String} {manifest : Manifest} {violation : Violation}

theorem WrongTarget.target?_eq {number : Nat} {entry : TargetEntry} {place : Place}
    (h : manifest.WrongTarget number entry place violation) : violation.target? = some entry.name := by
  cases h <;> rfl

/-- Something is wrong with a target only if no other target has its name, as repeated names come
first. -/
theorem eq_of_name_eq {place : Place} (h : IsFirst manifest.Wrong place violation) {number : Nat}
    {entry : TargetEntry} (hwrong : manifest.WrongTarget number entry place violation)
    (hentry : (manifest.targets.map TargetEntry.name)[number]? = some entry.name) {other : Nat}
    (hother : (manifest.targets.map TargetEntry.name)[other]? = some entry.name) : other = number := by
  by_contra hne
  obtain ⟨again, hrepeated⟩ : ∃ again, manifest.Wrong (.name again) (.duplicateTarget entry.name) := by
    rcases Nat.lt_or_gt_of_ne hne with hlt | hgt
    · exact ⟨number, .repeatedName hlt hother hentry⟩
    · exact ⟨other, .repeatedName hgt hentry hother⟩
  obtain ⟨rest, hrank⟩ := hwrong.exists_rank
  rcases h.2 _ _ hrepeated with ⟨-, rfl⟩ | hlater
  · cases hwrong
  · rw [Place.lt_iff, hrank] at hlater
    simp [Place.rank, List.cons_lt_cons_iff] at hlater

/-- Only the passage of this number is for a target of the name. -/
def IsOwn (source : String) (number : Nat) (target : String) : Prop :=
  ∀ other, (∃ line, WrittenAt source other "name" target line) ↔ other = number

/-- The target that a violation is about has a passage of its own. -/
theorem exists_own (hmanifest : manifest.validate = .error violation)
    (hdeclared : List.Forall₂ TargetEntry.DeclaredIn manifest.targets (targetPassages source))
    {target : String} (htarget : violation.target? = some target) :
    ∃ number entry place, manifest.targets[number]? = some entry ∧ entry.name = target ∧
      manifest.WrongTarget number entry place violation ∧ IsOwn source number target := by
  obtain ⟨place, hfirst⟩ := validate_eq_error.1 hmanifest
  cases hfirst.1 with
  | @target number entry _ _ hentry hwrong =>
    obtain rfl := Option.some.inj (hwrong.target?_eq.symm.trans htarget)
    have hname : (manifest.targets.map TargetEntry.name)[number]? = some entry.name := by
      rw [List.getElem?_map, hentry, Option.map_some]
    refine ⟨number, entry, place, hentry, rfl, hwrong, fun other => ?_⟩
    rw [exists_writtenAt_name_iff hdeclared]
    constructor
    · exact eq_of_name_eq hfirst hwrong hname
    · rintro rfl
      exact hname
  | _ => cases htarget

/-- What is wrong with a text is wrong with its targets as their passages write them. -/
theorem declared_of_parse (hsome : targetPassages source ≠ [])
    (h : parse source sourceName = .error (.invalid sourceName source violation)) :
    ∃ manifest : Manifest, manifest.validate = .error violation ∧
      List.Forall₂ TargetEntry.DeclaredIn manifest.targets (targetPassages source) := by
  rcases parse_eq_error h with ⟨fault, -, hfault⟩ | ⟨manifest, found, htext, hmanifest, herror⟩
  · cases hfault
  · obtain ⟨-, -, rfl⟩ := ManifestError.invalid.inj herror
    exact ⟨manifest, hmanifest, forall₂_declared htext hsome⟩

/-- Of two numbers or more there are the first and the second. -/
theorem exists_first_two {P : Nat → Prop} {earlier later : Nat} (hlt : earlier < later)
    (hearlier : P earlier) (hlater : P later) :
    ∃ first second, first < second ∧ P first ∧ P second ∧
      ∀ number, P number → number = first ∨ second ≤ number := by
  classical
  have hsome : ∃ number, P number := ⟨earlier, hearlier⟩
  have hmore : ∃ number, Nat.find hsome < number ∧ P number :=
    ⟨later, (Nat.find_min' hsome hearlier).trans_lt hlt, hlater⟩
  refine ⟨Nat.find hsome, Nat.find hmore, (Nat.find_spec hmore).1, Nat.find_spec hsome,
    (Nat.find_spec hmore).2, fun number hnumber => ?_⟩
  rcases (Nat.find_min' hsome hnumber).eq_or_lt with heq | hbehind
  · exact .inl heq.symm
  · exact .inr (Nat.find_min' hmore ⟨hbehind, hnumber⟩)

/-! ## Labels at names -/

/-- A name that is repeated is written for a first target and for a second one. -/
theorem exists_named_twice {name : String}
    (hmanifest : manifest.validate = .error (.duplicateTarget name))
    (hdeclared : List.Forall₂ TargetEntry.DeclaredIn manifest.targets (targetPassages source)) :
    ∃ earlier later first second, earlier < later ∧ WrittenAt source earlier "name" name first ∧
      WrittenAt source later "name" name second ∧
      ∀ number line, WrittenAt source number "name" name line → number = earlier ∨ later ≤ number := by
  obtain ⟨place, hwrong, -⟩ := validate_eq_error.1 hmanifest
  cases hwrong with
  | target declared wrong => cases wrong
  | repeatedName behind hfirst hsecond =>
    obtain ⟨earlier, later, hlt, hearlier, hlater, hleast⟩ := exists_first_two
      (P := fun number => ∃ line, WrittenAt source number "name" name line) behind
      ((exists_writtenAt_name_iff hdeclared).2 hfirst)
      ((exists_writtenAt_name_iff hdeclared).2 hsecond)
    obtain ⟨first, hfirst⟩ := hearlier
    obtain ⟨second, hsecond⟩ := hlater
    exact ⟨earlier, later, first, second, hlt, hfirst, hsecond,
      fun number line hline => hleast number ⟨line, hline⟩⟩

section

variable (hplain : PlainTargets source) (hsome : targetPassages source ≠ [])
include hplain hsome

/-- In a text with headers for its targets, whose texts are written plainly, both labels of a repeated name
are there. They stand at the first target and the second one of this name, or before them. The first label is
right exactly if no pair of the name stands before that of the first target, and the second label exactly if
no two pairs that keep apart stand before that of the second. The label of a target that lacks its host, its
platform or its deployment target is there as well. It stands at the name of this target or before it, and is
right exactly if no pair of the name stands before. -/
theorem name_labels_ahead
    (h : parse source sourceName = .error (.invalid sourceName source violation)) :
    (∀ name, violation = .duplicateTarget name →
      ∃ earlier later first second firstSpan secondSpan,
        earlier < later ∧ WrittenAt source earlier "name" name first ∧
        WrittenAt source later "name" name second ∧
        (∀ number line, WrittenAt source number "name" name line →
          number = earlier ∨ later ≤ number) ∧
        violation.labels source =
          [⟨"first declared here", firstSpan⟩, ⟨"declared again here", secondSpan⟩] ∧
        LabelledBy source "name" name 0 first firstSpan ∧
        LabelledBy source "name" name 1 second secondSpan) ∧
    ∀ name, violation ∈ [.missingHost name, .missingPlatform name, .missingDeploymentTarget name] →
      ∃ number line span, IsOwn source number name ∧ WrittenAt source number "name" name line ∧
        violation.labels source = [⟨violation.message, span⟩] ∧
        LabelledBy source "name" name 0 line span := by
  obtain ⟨manifest, hmanifest, hdeclared⟩ := declared_of_parse hsome h
  constructor
  · rintro name rfl
    obtain ⟨earlier, later, first, second, hlt, hfirst, hsecond, hleast⟩ :=
      exists_named_twice hmanifest hdeclared
    obtain ⟨firstSpan, hfirstFound, hfirstLabel⟩ := hfirst.exists_labelledBy hplain
    obtain ⟨secondSpan, hsecondFound, hsecondLabel⟩ :=
      hfirst.exists_second_labelledBy hplain (by decide) hlt hsecond
    refine ⟨earlier, later, first, second, firstSpan, secondSpan, hlt, hfirst, hsecond, hleast, ?_,
      hfirstLabel, hsecondLabel⟩
    rw [Violation.labels, Violation.places, hfirstFound, hsecondFound]
    rfl
  · intro name hviolation
    obtain ⟨htarget, hplaces⟩ : violation.target? = some name ∧
        violation.places source = [(violation.message, Span.ofPair? source "name" name 0)] := by
      simp only [List.mem_cons, List.not_mem_nil, or_false] at hviolation
      rcases hviolation with rfl | rfl | rfl <;> exact ⟨rfl, rfl⟩
    obtain ⟨number, entry, place, hentry, rfl, hwrong, hown⟩ := exists_own hmanifest hdeclared htarget
    obtain ⟨line, hline⟩ := (hown number).2 rfl
    obtain ⟨span, hfound, hlabel⟩ := hline.exists_labelledBy hplain
    exact ⟨number, line, span, hown, hline, Violation.labels_eq_singleton hplaces hfound, hlabel⟩

end

/-- The project has the name of two targets, so that its own name is taken for that of the first one, and
the first one's for that of the second. -/
theorem project_shown_for_target :
    let text := "[project]\nname = \"App\"\n\n" ++
      "[[targets]]\nname = \"App\"\ntype = \"application\"\nplatform = \"ios\"\n" ++
      "deployment_target = \"15.0\"\n\n" ++
      "[[targets]]\nname = \"App\"\ntype = \"framework\"\nplatform = \"ios\"\n" ++
      "deployment_target = \"15.0\"\n"
    let error := ManifestError.invalid defaultFileName text (.duplicateTarget "App")
    let Pair (offset : Nat) := Search.Occurs (Span.pair "name" "App" "\"") text offset
    parse text defaultFileName = .error error ∧ PlainTargets text ∧ targetPassages text ≠ [] ∧
      error.labels = [⟨"first declared here", ⟨18, 3⟩⟩, ⟨"declared again here", ⟨44, 3⟩⟩] ∧
      ∃ first second, WrittenAt text 0 "name" "App" first ∧ WrittenAt text 1 "name" "App" second ∧
        first.valueSpan text "name" "App" = ⟨44, 3⟩ ∧ second.valueSpan text "name" "App" = ⟨135, 3⟩ ∧
        (∃ offset < first.offset text, Pair offset) ∧
        ∃ earlier again, Pair earlier ∧ Pair again ∧ earlier < again ∧ again < second.offset text := by
  intro text error Pair
  have herror : parse text defaultFileName = .error error := by
    apply parse_eq_invalid
    unfold Toml.parse? Toml.readDocument
    simp only [text, String.toList_append]
    repeat rw [String.toList_ofList]
    decide +kernel
  obtain ⟨hplain, hsome, hoffsets⟩ : PlainTargets text ∧ targetPassages text ≠ [] ∧
      offsetsOf text "name" "App" = [[36], [127]] := by
    unfold offsetsOf Line.offset PlainTargets targetPassages passages?
    simp only [← Search.utf8Len_toList, text, String.toList_append]
    repeat rw [String.toList_ofList]
    decide +kernel
  have hoccurrences : Search.occurrences (Span.pair "name" "App" "\"") text = [10, 36, 127] := by
    unfold Search.occurrences Span.pair Span.opening
    simp only [text, String.toList_append]
    repeat rw [String.toList_ofList]
    decide +kernel
  have hsizes : "name".utf8ByteSize = 4 ∧ "App".utf8ByteSize = 3 := by decide +kernel
  have hlabels : error.labels =
      [⟨"first declared here", ⟨18, 3⟩⟩, ⟨"declared again here", ⟨44, 3⟩⟩] := by
    simp only [error, ManifestError.labels, Violation.labels, Violation.places, Span.ofPair?,
      Span.ofQuotedPair?_eq, hoccurrences, hsizes]
    rfl
  obtain ⟨hrepeated, -⟩ := name_labels_ahead hplain hsome herror
  obtain ⟨earlier, later, first, second, firstSpan, secondSpan, hlt, hfirst, hsecond, -, hboth,
    hfirstLabel, hsecondLabel⟩ := hrepeated "App" rfl
  have hplace : ∀ {number line}, WrittenAt text number "name" "App" line →
      (number = 0 ∧ line.offset text = 36) ∨ (number = 1 ∧ line.offset text = 127) := by
    intro number line hwritten
    obtain ⟨offsets, hat, hmem⟩ := hwritten.mem_offsetsOf
    rw [hoffsets] at hat
    rcases number with _ | _ | number
    · cases hat
      exact .inl ⟨rfl, List.mem_singleton.1 hmem⟩
    · cases hat
      exact .inr ⟨rfl, List.mem_singleton.1 hmem⟩
    · cases hat
  -- There are two numbers only for the two targets.
  obtain ⟨rfl, hfirstOffset⟩ : earlier = 0 ∧ first.offset text = 36 := by
    rcases hplace hfirst with hzero | hone
    · exact hzero
    · rcases hplace hsecond with hzero | hone' <;> omega
  obtain ⟨rfl, hsecondOffset⟩ : later = 1 ∧ second.offset text = 127 := by
    rcases hplace hsecond with hzero | hone
    · omega
    · exact hone
  have hfirstSpan : first.valueSpan text "name" "App" = ⟨44, 3⟩ := by
    rw [Line.valueSpan, hfirstOffset, hsizes.1, hsizes.2]
  have hsecondSpan : second.valueSpan text "name" "App" = ⟨135, 3⟩ := by
    rw [Line.valueSpan, hsecondOffset, hsizes.1, hsizes.2]
  obtain ⟨rfl, rfl⟩ : firstSpan = ⟨18, 3⟩ ∧ secondSpan = ⟨44, 3⟩ := by
    have hsame := hlabels.symm.trans hboth
    simp only [List.cons.injEq, Label.mk.injEq, true_and, and_true] at hsame
    exact ⟨hsame.1.symm, hsame.2.symm⟩
  refine ⟨herror, hplain, hsome, hlabels, first, second, hfirst, hsecond, hfirstSpan, hsecondSpan, ?_, ?_⟩
  · exact hfirstLabel.exists_before (by rw [hfirstSpan]; decide)
  · obtain ⟨one, other, hone, hother, hapart, hbefore⟩ :=
      hsecondLabel.exists_two_before (by rw [hsecondSpan]; decide)
    have hsize : (Span.pair "name" "App" "\"").utf8ByteSize = 12 := by decide +kernel
    exact ⟨one, other, hone, hother, by omega, hbefore⟩

/-! ## Labels at hosts -/

/-- In a text with headers for its targets, whose texts are written plainly, the label of a host that is not
wanted, not known or a unit-test bundle itself is there. It stands at the host of the target that the
violation is about, or before it, and is right exactly if no pair of the host stands before. -/
theorem host_labels_ahead (hplain : PlainTargets source) (hsome : targetPassages source ≠ [])
    (h : parse source sourceName = .error (.invalid sourceName source violation)) :
    ∀ target host, (violation = .unknownHost target host ∨ violation = .nestedHost target host ∨
        ∃ type, violation = .unwantedHost target type host) →
      ∃ number line words span, IsOwn source number target ∧
        WrittenAt source number "host" host line ∧ violation.labels source = [⟨words, span⟩] ∧
        LabelledBy source "host" host 0 line span := by
  intro target host hviolation
  obtain ⟨manifest, hmanifest, hdeclared⟩ := declared_of_parse hsome h
  obtain ⟨htarget, words, hplaces⟩ : violation.target? = some target ∧ ∃ words,
      violation.places source = [(words, Span.ofPair? source "host" host 0)] := by
    rcases hviolation with rfl | rfl | ⟨type, rfl⟩ <;> exact ⟨rfl, _, rfl⟩
  obtain ⟨number, entry, place, hentry, rfl, hwrong, hown⟩ := exists_own hmanifest hdeclared htarget
  have hhost : entry.host = some host := by
    rcases hviolation with rfl | rfl | ⟨type, rfl⟩ <;> cases hwrong <;> assumption
  obtain ⟨line, hline⟩ := exists_writtenAt_host hdeclared hentry hhost
  obtain ⟨span, hfound, hlabel⟩ := hline.exists_labelledBy hplain
  exact ⟨number, line, words, span, hown, hline, Violation.labels_eq_singleton hplaces hfound, hlabel⟩

/-- A framework that has a host although it is no unit-test bundle, behind a bundle that rightly has the same
host. The host of the bundle is shown. -/
theorem bundle_shown_for_framework :
    let text := "[project]\nname = \"Demo\"\n\n" ++
      "[[targets]]\nname = \"App\"\ntype = \"application\"\nplatform = \"ios\"\n" ++
      "deployment_target = \"15.0\"\n\n" ++
      "[[targets]]\nname = \"AppTests\"\ntype = \"unit-test-bundle\"\nhost = \"App\"\n\n" ++
      "[[targets]]\nname = \"Kit\"\ntype = \"framework\"\nplatform = \"ios\"\n" ++
      "deployment_target = \"15.0\"\nhost = \"App\"\n"
    let violation := Violation.unwantedHost "Kit" .framework "App"
    let error := ManifestError.invalid defaultFileName text violation
    parse text defaultFileName = .error error ∧ PlainTargets text ∧ targetPassages text ≠ [] ∧
      error.labels = [⟨violation.message, ⟨180, 3⟩⟩] ∧
      ∃ line, IsOwn text 2 "Kit" ∧ WrittenAt text 2 "host" "App" line ∧
        line.valueSpan text "host" "App" = ⟨282, 3⟩ ∧
        ∃ offset < line.offset text, Search.Occurs (Span.pair "host" "App" "\"") text offset := by
  intro text violation error
  have herror : parse text defaultFileName = .error error := by
    apply parse_eq_invalid
    unfold Toml.parse? Toml.readDocument
    simp only [text, String.toList_append]
    repeat rw [String.toList_ofList]
    decide +kernel
  obtain ⟨hplain, hsome, hnames, hhosts⟩ : PlainTargets text ∧ targetPassages text ≠ [] ∧
      offsetsOf text "name" "Kit" = [[], [], [198]] ∧
      offsetsOf text "host" "App" = [[], [172], [274]] := by
    unfold offsetsOf Line.offset PlainTargets targetPassages passages?
    simp only [← Search.utf8Len_toList, text, String.toList_append]
    repeat rw [String.toList_ofList]
    decide +kernel
  have hoccurrences : Search.occurrences (Span.pair "host" "App" "\"") text = [172, 274] := by
    unfold Search.occurrences Span.pair Span.opening
    simp only [text, String.toList_append]
    repeat rw [String.toList_ofList]
    decide +kernel
  have hsizes : "host".utf8ByteSize = 4 ∧ "App".utf8ByteSize = 3 := by decide +kernel
  have hlabels : error.labels = [⟨violation.message, ⟨180, 3⟩⟩] := by
    simp only [error, violation, ManifestError.labels, Violation.labels, Violation.places, Span.ofPair?,
      Span.ofQuotedPair?_eq, hoccurrences, hsizes]
    rfl
  obtain ⟨number, line, words, span, hown, hline, hone, hlabel⟩ :=
    host_labels_ahead hplain hsome herror "Kit" "App" (.inr (.inr ⟨_, rfl⟩))
  -- The names tell the number of the target.
  obtain rfl : number = 2 := by
    obtain ⟨other, hother⟩ := (hown number).2 rfl
    obtain ⟨offsets, hat, hmem⟩ := hother.mem_offsetsOf
    rw [hnames] at hat
    rcases number with _ | _ | _ | number
    · cases hat
      cases hmem
    · cases hat
      cases hmem
    · rfl
    · cases hat
  have hoffset : line.offset text = 274 := by
    obtain ⟨offsets, hat, hmem⟩ := hline.mem_offsetsOf
    rw [hhosts] at hat
    cases hat
    exact List.mem_singleton.1 hmem
  have hspan : line.valueSpan text "host" "App" = ⟨282, 3⟩ := by
    rw [Line.valueSpan, hoffset, hsizes.1, hsizes.2]
  obtain rfl : span = ⟨180, 3⟩ := by
    have hsame := hlabels.symm.trans hone
    simp only [List.cons.injEq, Label.mk.injEq, and_true] at hsame
    exact hsame.2.symm
  refine ⟨herror, hplain, hsome, hlabels, line, hown, hline, hspan, ?_⟩
  exact hlabel.exists_before (by rw [hspan]; decide)

end Manifest

end ProjectCompiler
