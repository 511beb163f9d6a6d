import ProjectCompiler.Proofs.Project.Cloning

/-!
# Contents — what is made does not depend on the supply

Whatever makes objects names them by the identities that it is given, and looks at no identity. So what
it makes from the same contents has the same contents, wherever the supply stands.

- `Fresh.Alike`, `Building.Alike`: two computations that make the same, as far as can be seen, from any
  two supplies;
- `Target.editConfiguration_alike`, `Target.unitTestBundle_alike` and their like: this holds of all that
  makes targets;
- `Project.withConfigurations_alike`: and of projects before their targets.
-/

namespace ProjectCompiler

open Stateful

variable {α β γ δ : Type}

/-! ## Computations that make the same -/

namespace Fresh

/-- From any two supplies, the two make what looks the same. -/
def Alike (view : α → γ) (x y : Fresh α) : Prop :=
  ∀ before other, view (x before).1 = view (y other).1

namespace Alike

variable {view : α → γ} {seen : β → δ} {x y : Fresh α} {a b : α}

theorem pure (h : view a = view b) : Alike view (Pure.pure a) (Pure.pure b) :=
  fun _ _ => h

theorem bind {f g : α → Fresh β} (hx : Alike view x y)
    (h : ∀ a b, view a = view b → Alike seen (f a) (g b)) : Alike seen (x >>= f) (y >>= g) := by
  intro before other
  exact h _ _ (hx before other) (x before).2 (y other).2

theorem freshIdentity : Alike (fun _ => ()) ProjectCompiler.freshIdentity
    ProjectCompiler.freshIdentity :=
  fun _ _ => rfl

theorem foldlM {items : List β} {f : α → β → Fresh α}
    (hf : ∀ item a b, view a = view b → Alike view (f a item) (f b item)) (h : view a = view b) :
    Alike view (items.foldlM f a) (items.foldlM f b) := by
  induction items generalizing a b with
  | nil => exact pure h
  | cons item rest ih => exact (hf item a b h).bind fun _ _ hnext => ih hnext

theorem mapM {look : β → δ} {f : β → Fresh α}
    (hf : ∀ item other, look item = look other → Alike view (f item) (f other))
    {items others : List β} (h : items.map look = others.map look) :
    Alike (List.map view) (items.mapM f) (others.mapM f) := by
  induction items generalizing others with
  | nil =>
    obtain rfl := List.map_eq_nil_iff.1 h.symm
    exact pure rfl
  | cons item rest ih =>
    cases others with
    | nil => cases h
    | cons other rest' =>
      obtain ⟨hfirst, hrest⟩ := List.cons.inj h
      simp only [List.mapM_cons]
      refine (hf item other hfirst).bind fun a b hab => (ih hrest).bind fun as bs hrests => ?_
      exact pure (by rw [List.map_cons, List.map_cons, hab, hrests])

end Alike

end Fresh

namespace Building

/-- From any two supplies, the two fail for the same reason or make what looks the same. -/
def Alike (view : α → γ) (x y : Building α) : Prop :=
  ∀ before other, (x before).1.map view = (y other).1.map view

namespace Alike

variable {view : α → γ} {seen : β → δ} {x y : Building α} {a b : α}

theorem lift {x y : Fresh α} (h : x.Alike view y) : Alike view (liftM x) (liftM y) := by
  intro before other
  exact congrArg Except.ok (h before other)

theorem pure (h : view a = view b) : Alike view (Pure.pure a) (Pure.pure b) :=
  lift (Fresh.Alike.pure h)

theorem throw (error : ModelError) :
    Alike view (MonadExcept.throw error : Building α) (MonadExcept.throw error) :=
  fun _ _ => rfl

theorem bind {f g : α → Building β} (hx : Alike view x y)
    (h : ∀ a b, view a = view b → Alike seen (f a) (g b)) : Alike seen (x >>= f) (y >>= g) := by
  intro before other
  have hfirst := hx before other
  rcases hrun : x before with ⟨result, middle⟩
  rcases hrun' : y other with ⟨result', middle'⟩
  rw [hrun, hrun'] at hfirst
  cases result with
  | error error =>
    cases result' with
    | error error' =>
      obtain rfl : error = error' := Except.error.inj hfirst
      rw [bind_of_error hrun, bind_of_error hrun']
    | ok made' => cases hfirst
  | ok made =>
    cases result' with
    | error error' => cases hfirst
    | ok made' =>
      rw [bind_of_ok hrun, bind_of_ok hrun']
      exact h made made' (Except.ok.inj hfirst) middle middle'

end Alike

end Building

/-! ## Configurations and schemes -/

namespace BuildConfiguration

theorem new_alike (name : String) : (new name).Alike anonymous (new name) := by
  unfold new
  exact Fresh.Alike.freshIdentity.bind fun _ _ _ => Fresh.Alike.pure rfl

theorem map_name_of_anonymous {configurations others : List BuildConfiguration}
    (h : configurations.map anonymous = others.map anonymous) :
    configurations.map name = others.map name := by
  have hname : ∀ all : List BuildConfiguration, all.map name = (all.map anonymous).map name := by
    simp [anonymous, Function.comp_def]
  rw [hname, h, ← hname]

theorem ensure_alike (name : String) {configurations others : List BuildConfiguration}
    (h : configurations.map anonymous = others.map anonymous) :
    (ensure name configurations).Alike (List.map anonymous) (ensure name others) := by
  have hfound : (find? configurations name).isSome = (find? others name).isSome := by
    rw [Bool.eq_iff_iff, find?_isSome, find?_isSome, map_name_of_anonymous h]
  unfold ensure
  rw [hfound]
  split
  · exact Fresh.Alike.pure h
  · refine (new_alike name).bind fun made made' hmade => Fresh.Alike.pure ?_
    simp [h, hmade]

theorem map_anonymous_modifyFirst {change : BuildConfiguration → BuildConfiguration}
    (h : ∀ configuration, (change configuration).anonymous = change configuration.anonymous)
    (name : String) (configurations : List BuildConfiguration) :
    (modifyFirst name change configurations).map anonymous =
      modifyFirst name change (configurations.map anonymous) := by
  induction configurations with
  | nil => rfl
  | cons configuration rest ih =>
    have hname : configuration.anonymous.name = configuration.name := rfl
    simp only [modifyFirst, List.map_cons, hname]
    split
    · rw [List.map_cons, h]
    · rw [List.map_cons, ih]

end BuildConfiguration

theorem Scheme.new_alike (name : String) : (Scheme.new name).Alike anonymous (Scheme.new name) := by
  unfold Scheme.new
  exact Fresh.Alike.freshIdentity.bind fun _ _ _ => Fresh.Alike.pure rfl

/-! ## Targets -/

namespace Target

variable {target other : Target}

theorem new_alike (name : String) (type : TargetType) (platform : Platform)
    (deploymentTarget : String) : (new name type platform deploymentTarget).Alike anonymous
      (new name type platform deploymentTarget) := by
  unfold new
  exact Fresh.Alike.freshIdentity.bind fun _ _ _ => Fresh.Alike.pure rfl

/-- A bundle takes over contents of its host, and not its identity. -/
theorem unitTestBundle_anonymous (name : String) (host : Target) :
    unitTestBundle name host.anonymous = unitTestBundle name host :=
  rfl

theorem unitTestBundle_alike (name : String) (h : target.anonymous = other.anonymous) :
    (unitTestBundle name target).Alike anonymous (unitTestBundle name other) := by
  rw [← unitTestBundle_anonymous name target, h, unitTestBundle_anonymous]
  unfold unitTestBundle
  refine (new_alike name _ _ _).bind fun made made' hmade => Fresh.Alike.pure ?_
  exact congrArg (fun made : Target => { made with
    language := other.language
    includeFiles := other.includeFiles
    excludeFiles := other.excludeFiles
    host := some other.name
    settings := (made.settings.insert "TEST_HOST" (.str (testHost other.name))).insert
      "BUNDLE_LOADER" (.str "$(TEST_HOST)") }) hmade

theorem ensureConfiguration_alike (name : String) (h : target.anonymous = other.anonymous) :
    (target.ensureConfiguration name).Alike anonymous (other.ensureConfiguration name) := by
  have hconfigurations : target.configurations.map BuildConfiguration.anonymous =
      other.configurations.map BuildConfiguration.anonymous := congrArg Target.configurations h
  unfold ensureConfiguration
  refine (BuildConfiguration.ensure_alike name hconfigurations).bind fun made made' hmade => ?_
  refine Fresh.Alike.pure ?_
  show { target.anonymous with configurations := made.map BuildConfiguration.anonymous } =
    { other.anonymous with configurations := made'.map BuildConfiguration.anonymous }
  rw [h, hmade]

theorem editConfiguration_alike (name : String) {change : BuildConfiguration → BuildConfiguration}
    (hchange : ∀ configuration, (change configuration).anonymous = change configuration.anonymous)
    (h : target.anonymous = other.anonymous) :
    (target.editConfiguration name change).Alike anonymous
      (other.editConfiguration name change) := by
  unfold editConfiguration
  refine (ensureConfiguration_alike name h).bind fun made made' hmade => Fresh.Alike.pure ?_
  have hedited := BuildConfiguration.map_anonymous_modifyFirst hchange name
  have hanonymous : ∀ made : Target, Target.anonymous { made with
      configurations := BuildConfiguration.modifyFirst name change made.configurations } =
      { made.anonymous with
        configurations :=
          BuildConfiguration.modifyFirst name change made.anonymous.configurations } := by
    simp [anonymous, hedited]
  rw [hanonymous, hanonymous, hmade]

theorem addScheme_alike (name : String) {change : Scheme → Scheme}
    (hchange : ∀ scheme, (change scheme).anonymous = change scheme.anonymous)
    (h : target.anonymous = other.anonymous) :
    (target.addScheme name change).Alike anonymous (other.addScheme name change) := by
  have hschemes : target.schemes.map Scheme.anonymous = other.schemes.map Scheme.anonymous :=
    congrArg Target.schemes h
  unfold addScheme
  refine (Scheme.new_alike name).bind fun made made' hmade => Fresh.Alike.pure ?_
  show { target.anonymous with schemes := (target.schemes ++ [change made]).map Scheme.anonymous } =
    { other.anonymous with schemes := (other.schemes ++ [change made']).map Scheme.anonymous }
  simp [h, hschemes, hchange, hmade]

end Target

/-! ## Projects -/

namespace Project

variable {project other : Project}

theorem addConfiguration_alike (name : String) (h : project.anonymous = other.anonymous) :
    (project.addConfiguration name).Alike anonymous (other.addConfiguration name) := by
  have htargets : project.targets.map Target.anonymous = other.targets.map Target.anonymous :=
    congrArg Project.targets h
  have hconfigurations : project.configurations.map BuildConfiguration.anonymous =
      other.configurations.map BuildConfiguration.anonymous := congrArg Project.configurations h
  unfold addConfiguration
  refine (Fresh.Alike.mapM (fun _ _ => Target.ensureConfiguration_alike name) htargets).bind
    fun targets targets' hmade => ?_
  refine (BuildConfiguration.ensure_alike name hconfigurations).bind
    fun configurations configurations' hdeclared => Fresh.Alike.pure ?_
  show { project.anonymous with
      targets := targets.map Target.anonymous
      configurations := configurations.map BuildConfiguration.anonymous } =
    { other.anonymous with
      targets := targets'.map Target.anonymous
      configurations := configurations'.map BuildConfiguration.anonymous }
  rw [h, hmade, hdeclared]

theorem chooseDefault_of_anonymous (h : project.anonymous = other.anonymous) :
    project.chooseDefault = other.chooseDefault := by
  refine chooseDefault_congr ?_
  rw [← project.declared_anonymous, h, other.declared_anonymous]

theorem withConfigurations_alike (name : String) (configurations : List String) :
    (withConfigurations name configurations).Alike anonymous
      (withConfigurations name configurations) := by
  unfold withConfigurations
  refine Fresh.Alike.freshIdentity.bind fun id id' _ => ?_
  refine Fresh.Alike.bind
    (Fresh.Alike.foldlM (fun declared _ _ => addConfiguration_alike declared) ?_)
    fun made made' hmade => Fresh.Alike.pure ?_
  · rfl
  show { made.anonymous with defaultConfiguration := made.chooseDefault } =
    { made'.anonymous with defaultConfiguration := made'.chooseDefault }
  rw [hmade, chooseDefault_of_anonymous hmade]

theorem anonymous_editConfiguration {change : BuildConfiguration → BuildConfiguration}
    (hchange : ∀ configuration, (change configuration).anonymous = change configuration.anonymous)
    (name : String) (project : Project) :
    (project.editConfiguration name change).anonymous =
      project.anonymous.editConfiguration name change := by
  simp only [editConfiguration, anonymous,
    BuildConfiguration.map_anonymous_modifyFirst hchange name]

end Project

end ProjectCompiler
