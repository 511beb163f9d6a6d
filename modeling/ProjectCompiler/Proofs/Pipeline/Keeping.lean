import ProjectCompiler.Proofs.Native.Steps
import ProjectCompiler.Proofs.Pipeline.Calls
import ProjectCompiler.Proofs.Pipeline.Session

/-!
# Keeping — what no run takes away

Generators and plugins are arbitrary programs, and a run may stop at any of their calls. Whatever they
do and however the run ends, the backend keeps its objects and the scheme list that it works on, and
every node keeps the native object that was made for it.

- `Pipeline.run_moves`: what holds along every call holds along every run;
- `Session.Keeps`: what calls leave alone, `Call.perform_keeps`;
- `Pipeline.run_keeps`: neither do whole runs take it away.
-/

namespace ProjectCompiler

open Stateful

variable {ν α : Type}

/-! ## All programs -/

theorem Program.only_true (program : Program ν α) : program.Only fun _ => True := by
  induction program with
  | done result => trivial
  | call c next ih => exact ⟨trivial, ih⟩
  | fire hook next ih => exact ih

theorem Pipeline.only_true (pipeline : Pipeline ν) : pipeline.Only fun _ => True where
  generators _ _ :=
    ⟨fun _ => Program.only_true _, fun _ => Program.only_true _, fun _ => Program.only_true _,
      fun _ => Program.only_true _, fun _ => Program.only_true _, fun _ => Program.only_true _⟩
  plugins _ _ :=
    ⟨fun _ => Program.only_true _, fun _ => Program.only_true _, fun _ => Program.only_true _⟩

namespace Pipeline

variable {related : Session ν → Session ν → Prop} [IsPreorder (Session ν) related]

/-- Whatever programs make of them, calls and entered callbacks are all that happens in a run. -/
theorem run_moves (hcalls : ∀ c : Call ν, Moves related c.perform)
    (henter : ∀ event, Moves related (Session.enter event)) (pipeline : Pipeline ν)
    (project : Project) (supply : Supply) (backend : Backend) :
    related (Session.start project supply backend) (pipeline.run project supply backend).2 := by
  rcases hrun : pipeline.run project supply backend with ⟨error | summary, after⟩
  · rcases run_eq_error hrun with rfl | ⟨generators, hordered, hfailed⟩
    · exact refl_of related _
    · have hentered := enterAll_moves pipeline.only_true hordered project (fun c _ => hcalls c) henter
        (Session.start project supply backend)
      rcases hfailed with hstopped | ⟨entered, hdone, hcommit⟩
      · rwa [hstopped] at hentered
      · -- Committing is a call like any other.
        rw [hdone] at hentered
        have hlast : related entered (Session.commit entered).2 := hcalls .commit entered
        rw [hcommit] at hlast
        exact trans_of related hentered hlast
  · rcases run_eq_ok hrun with ⟨generators, entered, answer, hordered, hdone, hcommit⟩
    have hentered := enterAll_moves pipeline.only_true hordered project (fun c _ => hcalls c) henter
      (Session.start project supply backend)
    rw [hdone] at hentered
    have hlast : related entered (Session.commit entered).2 := hcalls .commit entered
    rw [hcommit] at hlast
    exact trans_of related hentered hlast

end Pipeline

/-! ## Sessions -/

namespace Session

/-- The backend keeps what it has, and known nodes stay known, each under one entry. -/
structure Keeps (before after : Session ν) : Prop where
  backend : before.backend.Keeps after.backend
  natives : before.natives <+: after.natives
  distinct : (Entries.keys before.natives).Nodup → (Entries.keys after.natives).Nodup

instance : IsPreorder (Session ν) Keeps where
  refl session := ⟨refl_of Backend.Keeps session.backend, List.prefix_rfl, id⟩
  trans _ _ _ first second :=
    ⟨trans_of Backend.Keeps first.backend second.backend, first.natives.trans second.natives,
      second.distinct ∘ first.distinct⟩

theorem keeps_of_natives_eq {before after : Session ν} (h : before.backend.Keeps after.backend)
    (hnatives : after.natives = before.natives) : before.Keeps after where
  backend := h
  natives := hnatives ▸ List.prefix_rfl
  distinct := by
    rw [hnatives]
    exact id

theorem native_keeps (node : Node) : Moves Keeps (native (ν := ν) node) := by
  intro session
  rw [native_apply]
  rcases hfind : Entries.find? session.natives node.id with _ | id
  · rcases NativeObject.ofNode node with error | object
    · exact refl_of Keeps session
    · refine ⟨Backend.keeps_extended session.backend object, List.prefix_append _ _, ?_⟩
      intro hdistinct
      -- An entry is made only for an identity that has none.
      have hnew : node.id ∉ Entries.keys session.natives :=
        (Entries.find?_eq_none_iff session.natives node.id).1 hfind
      have hkeys : Entries.keys (session.natives ++ [(node.id, ⟨session.backend.objects.length⟩)]) =
          Entries.keys session.natives ++ [node.id] := by
        simp [Entries.keys]
      rw [hkeys]
      refine List.nodup_append.2 ⟨hdistinct, by simp, ?_⟩
      intro id hid other hother hsame
      obtain rfl := List.mem_singleton.1 hother
      exact hnew (hsame ▸ hid)
  · exact refl_of Keeps session

theorem commit_keeps : Moves Keeps (commit (ν := ν)) := by
  intro session
  rw [commit_apply]
  split
  · have hsaved := (session.backend.save_sameGraph).keeps
    rcases hsave : Backend.save session.backend with ⟨error | answer, backend⟩ <;>
      exact keeps_of_natives_eq (by simpa [hsave] using hsaved) rfl
  · exact refl_of Keeps session

end Session

theorem Call.perform_keeps (c : Call ν) : Moves Session.Keeps c.perform := by
  cases c with
  | native node => exact Session.native_keeps node
  | commit => exact Session.commit_keeps
  | backend operation =>
    intro session
    have hkept := operation.perform_keeps session.backend
    rw [perform, Session.edit_apply]
    exact Session.keeps_of_natives_eq hkept rfl
  | lookup | translated | project | staged | stage | construct | note =>
    -- These are about the session alone.
    intro session
    exact Session.keeps_of_natives_eq (refl_of Backend.Keeps session.backend) rfl

namespace Pipeline

theorem run_keeps (pipeline : Pipeline ν) (project : Project) (supply : Supply)
    (backend : Backend) :
    (Session.start project supply backend).Keeps (pipeline.run project supply backend).2 :=
  run_moves Call.perform_keeps
    (fun _ session => Session.keeps_of_natives_eq (refl_of Backend.Keeps session.backend) rfl)
    pipeline project supply backend

/-- No two entries of a run are about one object. -/
theorem nodup_natives_run (pipeline : Pipeline ν) (project : Project) (supply : Supply)
    (backend : Backend) :
    (Entries.keys (pipeline.run project supply backend).2.natives).Nodup :=
  (pipeline.run_keeps project supply backend).distinct List.nodup_nil

end Pipeline

end ProjectCompiler
