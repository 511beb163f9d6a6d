import ProjectCompiler.Proofs.Pipeline.Calls

/-!
# Quiet — programs that fire nothing

A program that fires no hook runs by itself: no handler comes in between. Quiet programs compose like
programs that restrict themselves to certain calls, and mostly the two come together.

- `Program.Within`: programs that fire nothing and make only certain calls;
- `Generator.All`, `Plugin.All`: what holds of every callback.
-/

namespace ProjectCompiler

variable {ν α β : Type}

/-! ## Programs -/

namespace Program

variable {allowed other : Call ν → Prop}

theorem Quiet.bind {program : Program ν α} {rest : α → Program ν β} (h : program.Quiet)
    (hrest : ∀ answer, (rest answer).Quiet) : (program >>= rest).Quiet := by
  induction program with
  | done result =>
    cases result with
    | ok answer => exact hrest answer
    | error error => trivial
  | call c next ih =>
    intro result
    exact ih result (h result)
  | fire hook next => exact h.elim

theorem Only.mono {program : Program ν α} (h : program.Only allowed)
    (hcalls : ∀ c, allowed c → other c) : program.Only other := by
  induction program with
  | done result => trivial
  | call c next ih => exact ⟨hcalls c h.1, fun result => ih result (h.2 result)⟩
  | fire hook next ih => exact fun result => ih result (h result)

/-- The program makes only certain calls and fires nothing. -/
structure Within (allowed : Call ν → Prop) (program : Program ν α) : Prop where
  only : program.Only allowed
  quiet : program.Quiet

namespace Within

theorem done (result : Except PipelineError α) : Within allowed (Program.done (ν := ν) result) :=
  ⟨trivial, trivial⟩

theorem request {c : Call ν} (h : allowed c) : Within allowed (Program.request c) :=
  ⟨Only.request h, fun _ => trivial⟩

theorem bind {program : Program ν α} {rest : α → Program ν β} (h : program.Within allowed)
    (hrest : ∀ answer, (rest answer).Within allowed) : (program >>= rest).Within allowed :=
  ⟨h.only.bind fun answer => (hrest answer).only, h.quiet.bind fun answer => (hrest answer).quiet⟩

theorem forM {items : List β} {body : β → Program ν Unit}
    (h : ∀ item ∈ items, (body item).Within allowed) : (items.forM body).Within allowed := by
  induction items with
  | nil => exact done (.ok ())
  | cons item rest ih =>
    have hrest := ih fun other hother => h other (List.mem_cons_of_mem _ hother)
    exact bind (h item List.mem_cons_self) fun _ => hrest

end Within

end Program

/-! ## Generators and plugins -/

/-- What holds of every callback of a generator. -/
structure Generator.All (P : Program ν Unit → Prop) (generator : Generator ν) : Prop where
  visitProject : ∀ project, P (generator.visitProject project)
  visitConfiguration : ∀ configuration, P (generator.visitConfiguration configuration)
  leaveConfiguration : ∀ configuration, P (generator.leaveConfiguration configuration)
  visitTarget : ∀ target, P (generator.visitTarget target)
  leaveTarget : ∀ target, P (generator.leaveTarget target)
  leaveProject : ∀ project, P (generator.leaveProject project)

/-- What holds of every callback of a plugin. -/
structure Plugin.All (P : Program ν Unit → Prop) (plugin : Plugin ν) : Prop where
  before : ∀ generator, P (plugin.before generator)
  after : ∀ generator, P (plugin.after generator)
  onHook : ∀ hook, P (plugin.onHook hook)

section All

variable {P Q : Program ν Unit → Prop}

theorem Generator.All.mono {generator : Generator ν} (h : generator.All P)
    (himp : ∀ program, P program → Q program) : generator.All Q where
  visitProject project := himp _ (h.visitProject project)
  visitConfiguration configuration := himp _ (h.visitConfiguration configuration)
  leaveConfiguration configuration := himp _ (h.leaveConfiguration configuration)
  visitTarget target := himp _ (h.visitTarget target)
  leaveTarget target := himp _ (h.leaveTarget target)
  leaveProject project := himp _ (h.leaveProject project)

theorem Plugin.All.mono {plugin : Plugin ν} (h : plugin.All P)
    (himp : ∀ program, P program → Q program) : plugin.All Q where
  before generator := himp _ (h.before generator)
  after generator := himp _ (h.after generator)
  onHook hook := himp _ (h.onHook hook)

/-- A generator that makes only some of certain calls. -/
theorem Generator.All.only {allowed other : Call ν → Prop} {generator : Generator ν}
    (h : generator.All (Program.Within allowed)) (hcalls : ∀ c, allowed c → other c) :
    generator.Only other where
  visitProject project := (h.visitProject project).only.mono hcalls
  visitConfiguration configuration := (h.visitConfiguration configuration).only.mono hcalls
  leaveConfiguration configuration := (h.leaveConfiguration configuration).only.mono hcalls
  visitTarget target := (h.visitTarget target).only.mono hcalls
  leaveTarget target := (h.leaveTarget target).only.mono hcalls
  leaveProject project := (h.leaveProject project).only.mono hcalls

/-- A plugin that makes only some of certain calls. -/
theorem Plugin.All.only {allowed other : Call ν → Prop} {plugin : Plugin ν}
    (h : plugin.All (Program.Within allowed)) (hcalls : ∀ c, allowed c → other c) :
    plugin.Only other where
  before generator := (h.before generator).only.mono hcalls
  after generator := (h.after generator).only.mono hcalls
  onHook hook := (h.onHook hook).only.mono hcalls

end All

end ProjectCompiler
