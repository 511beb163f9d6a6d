import ProjectCompiler.Proofs.Disk.Path
import ProjectCompiler.Proofs.Stateful
import Mathlib.Logic.Function.Iterate

/-!
# Writing — what happens to a file that is written

A file is written in two steps: missing directories are made, and then the file gets its new text.
Either step can fail. The directories that the first step made stay, but no file is touched by it, and
the second step fails only where there is no file. So a write that fails leaves the file as it was,
and after one that succeeds the file has the new text.

- `Disk.Grows`: a disk has become another one by new directories only;
- `Disk.Standing`: a directory that lies in directories all the way up;
- `Disk.read_replace`: a file has the text that was put there;
- `Backend.file?_of_writeFile_error`: a failed write leaves the file;
- `Disk.Writable`: when a write succeeds, `Backend.writeFile_of_writable` and
  `Backend.writeFile_of_not_writable`.
-/

namespace ProjectCompiler

namespace Disk

variable {disk disk' : Disk} {location found : Location} {parts : List String} {path : String}

/-- The file that a path names, whatever its bytes are; none for a directory. -/
def file? (disk : Disk) (path : String) : Option DiskEntry :=
  (disk.lookup? path).filter (· ≠ .directory)

/-! ## The same place on another disk -/

theorem walk_of_isDirectory
    (h : ∀ location, disk.isDirectory location = true → disk'.isDirectory location = true)
    (hwalk : disk.walk location parts = some found) : disk'.walk location parts = some found := by
  -- Only a step up asks for a directory, and every directory is still one.
  induction parts generalizing location with
  | nil => exact hwalk
  | cons part rest ih =>
    simp only [walk] at hwalk ⊢
    split at hwalk
    · rename_i hup
      split at hwalk
      · rename_i hdirectory
        rw [if_pos hup, if_pos (h _ hdirectory)]
        exact ih hwalk
      · cases hwalk
    · rename_i hdown
      rw [if_neg hdown]
      exact ih hwalk

/-- A path leads to the same place as long as directories stay. -/
theorem locate?_of_isDirectory
    (h : ∀ location, disk.isDirectory location = true → disk'.isDirectory location = true)
    (hlocate : disk.locate? path = some found) : disk'.locate? path = some found := by
  simp only [locate?] at hlocate ⊢
  split at hlocate
  · rename_i hfits
    rw [if_pos hfits]
    exact walk_of_isDirectory h hlocate
  · cases hlocate

/-! ## New directories -/

/-- Whatever is there stays, and what is new is a directory. -/
def Grows (disk disk' : Disk) : Prop :=
  ∀ location, disk'.entry? location = disk.entry? location ∨
    disk.entry? location = none ∧ disk'.entry? location = some .directory

namespace Grows

theorem refl (disk : Disk) : Grows disk disk := by
  intro location
  exact Or.inl rfl

theorem trans {disk'' : Disk} (first : Grows disk disk') (second : Grows disk' disk'') :
    Grows disk disk'' := by
  intro location
  rcases first location with h | ⟨hnone, hdirectory⟩
  · rw [← h]
    exact second location
  · -- A directory made by the first step is there for the second, and stays.
    rcases second location with h | ⟨habsent, -⟩
    · exact Or.inr ⟨hnone, h.trans hdirectory⟩
    · rw [hdirectory] at habsent
      cases habsent

theorem entry?_eq_some (h : Grows disk disk') {entry : DiskEntry}
    (hentry : disk.entry? location = some entry) : disk'.entry? location = some entry := by
  rcases h location with heq | ⟨hnone, -⟩
  · rw [heq, hentry]
  · rw [hentry] at hnone
    cases hnone

theorem isDirectory (h : Grows disk disk') (hdirectory : disk.isDirectory location = true) :
    disk'.isDirectory location = true := by
  simp only [Disk.isDirectory, decide_eq_true_eq] at hdirectory ⊢
  exact h.entry?_eq_some hdirectory

theorem locate?_eq_some (h : Grows disk disk') (hlocate : disk.locate? path = some found) :
    disk'.locate? path = some found :=
  locate?_of_isDirectory (fun _ => h.isDirectory) hlocate

theorem lookup?_eq_some (h : Grows disk disk') {entry : DiskEntry}
    (hlookup : disk.lookup? path = some entry) : disk'.lookup? path = some entry := by
  rcases Option.bind_eq_some_iff.1 hlookup with ⟨place, hplace, hrest⟩
  rcases Option.bind_eq_some_iff.1 hrest with ⟨old, hold, hkind⟩
  refine Option.bind_eq_some_iff.2 ⟨place, h.locate?_eq_some hplace, ?_⟩
  exact Option.bind_eq_some_iff.2 ⟨old, h.entry?_eq_some hold, hkind⟩

/-- A file that is not there now was not there before. -/
theorem file?_eq_none (h : Grows disk disk') (hfile : disk'.file? path = none) :
    disk.file? path = none := by
  rcases hlookup : disk.lookup? path with _ | entry
  · simp [file?, hlookup]
  · simpa [file?, hlookup, h.lookup?_eq_some hlookup] using hfile

end Grows

theorem grows_put_directory (h : disk.entry? location = none) :
    Grows disk (disk.put location .directory) := by
  intro other
  simp only [ entry?] at h ⊢
  split
  · exact Or.inl rfl
  · rename_i hother
    rcases eq_or_ne other location with rfl | hne
    · rw [if_neg hother] at h
      exact Or.inr ⟨h, Entries.find?_insert_self _ _ _⟩
    · exact Or.inl (Entries.find?_insert_ne _ _ hne)

theorem isDirectory_put_directory (disk : Disk) (location : Location) :
    (disk.put location .directory).isDirectory location = true := by
  simp only [isDirectory, entry?, put, Entries.find?_insert_self, ite_self, decide_true]

theorem createAlong_grows (h : disk.createAlong location parts = some disk') :
    Grows disk disk' := by
  -- Along the parts, from the disk reached so far.
  induction parts generalizing disk location with
  | nil =>
    obtain rfl := Option.some.inj h
    exact Grows.refl disk
  | cons part rest ih =>
    simp only [createAlong] at h
    split at h
    · exact ih h
    · split at h
      · exact ih h
      · cases h
      · rename_i hnone
        exact (grows_put_directory hnone).trans (ih h)

/-! ## Directories all the way up -/

/-- The location and everything above it are directories. -/
def Standing (disk : Disk) (location : Location) : Prop :=
  ∀ steps, disk.isDirectory (above^[steps] location) = true

namespace Standing

theorem isDirectory (h : Standing disk location) : disk.isDirectory location = true :=
  h 0

theorem above (h : Standing disk location) : Standing disk (above location) := by
  intro steps
  exact h (steps + 1)

theorem grows (h : Standing disk location) (hgrows : Grows disk disk') :
    Standing disk' location := by
  intro steps
  exact hgrows.isDirectory (h steps)

theorem of_above (hdirectory : disk.isDirectory location = true)
    (h : Standing disk (Disk.above location)) : Standing disk location := by
  intro steps
  cases steps with
  | zero => exact hdirectory
  | succ steps => exact h steps

end Standing

theorem alwaysThere_above (h : alwaysThere location = true) :
    alwaysThere (above location) = true := by
  by_cases hroot : location = ["/"]
  · simpa [above, hroot] using h
  · have hup : location.all (· = "..") = true := by simpa [alwaysThere, hroot] using h
    rw [above, if_neg hroot, if_pos hup]
    simpa [alwaysThere] using Or.inr (by simpa using hup)

theorem standing_of_alwaysThere (h : alwaysThere location = true) : Standing disk location := by
  intro steps
  -- Going up never leaves the places that are always there.
  have hsteps : alwaysThere (above^[steps] location) = true := by
    induction steps with
    | zero => exact h
    | succ steps ih =>
      rw [Function.iterate_succ_apply']
      exact alwaysThere_above ih
  simp [isDirectory, entry?, hsteps]

theorem standing_start (disk : Disk) (path : String) : Standing disk (start path) := by
  refine standing_of_alwaysThere ?_
  unfold start
  split <;> rfl

/-- A directory in a standing one is standing. -/
theorem standing_append {part : String} (h : Standing disk location)
    (hdirectory : disk.isDirectory (location ++ [part]) = true) (hdown : part ≠ "..") :
    Standing disk (location ++ [part]) := by
  by_cases hroot : location ++ [part] = ["/"]
  · exact standing_of_alwaysThere (by simp [alwaysThere, hroot])
  · refine Standing.of_above hdirectory ?_
    have habove : above (location ++ [part]) = location := by
      simp [above, hroot, hdown]
    rw [habove]
    exact h

/-- Along the parts of a path that was created, one arrives at a standing directory. -/
theorem walk_of_createAlong (h : disk.createAlong location parts = some disk')
    (hstanding : Standing disk location) :
    ∃ found, disk'.walk location parts = some found ∧ Standing disk' found := by
  -- That the location is standing carries the induction: a step up stays in a directory by it, and a
  -- step down leads to a directory that was there or has just been made.
  induction parts generalizing disk location with
  | nil =>
    obtain rfl := Option.some.inj h
    exact ⟨location, rfl, hstanding⟩
  | cons part rest ih =>
    have hgrows : Grows disk disk' := createAlong_grows h
    simp only [createAlong] at h
    simp only [walk]
    split at h
    · rename_i hup
      rw [if_pos hup, if_pos (hgrows.isDirectory hstanding.isDirectory)]
      exact ih h hstanding.above
    · rename_i hdown
      rw [if_neg hdown]
      split at h
      · rename_i hentry
        exact ih h (standing_append hstanding (by simpa [isDirectory] using hentry) hdown)
      · cases h
      · rename_i hnone
        have hput : Grows disk (disk.put (location ++ [part]) .directory) :=
          grows_put_directory hnone
        refine ih h (standing_append (hstanding.grows hput) ?_ hdown)
        exact isDirectory_put_directory disk (location ++ [part])

/-! ## A write that fails -/

theorem walk_append (disk : Disk) (location : Location) (parts others : List String) :
    disk.walk location (parts ++ others) =
      (disk.walk location parts).bind fun found => disk.walk found others := by
  induction parts generalizing location with
  | nil => rfl
  | cons part rest ih =>
    simp only [List.cons_append, walk]
    split
    · split
      · exact ih _
      · rfl
    · exact ih _

/-- Once the directory of a file is made, the place of the file lies in a directory. -/
theorem isDirectory_above_of_locate?
    (hmade : disk.createDirectories (Backend.outputDirectory path) = some disk')
    (hlocate : disk'.locate? path = some found) : disk'.isDirectory (above found) = true := by
  have hwalk : disk'.walk (start path) (Path.parts path) = some found := by
    simp only [locate?] at hlocate
    split at hlocate
    · exact hlocate
    · cases hlocate
  by_cases hparts : Path.parts path = []
  · -- A path without parts names the place where the walk starts.
    rw [hparts] at hwalk
    obtain rfl := Option.some.inj hwalk
    exact (standing_start disk' path).above.isDirectory
  · rcases Path.parts_outputDirectory hparts with ⟨⟨last, hlast⟩, habsolute⟩
    have hstart : start (Backend.outputDirectory path) = start path := by
      simp only [start, habsolute]
    have hcreated : disk.createAlong (start path)
        (Path.parts (Backend.outputDirectory path)) = some disk' := by
      simp only [createDirectories, hstart] at hmade
      split at hmade
      · exact hmade
      · cases hmade
    rcases walk_of_createAlong hcreated (standing_start disk path) with ⟨middle, hmiddle, hstanding⟩
    rw [hlast, walk_append, hmiddle, Option.bind_some] at hwalk
    simp only [walk] at hwalk
    -- The last part leads up or down from the directory that was made.
    split at hwalk
    · rw [if_pos hstanding.isDirectory] at hwalk
      obtain rfl := Option.some.inj hwalk
      exact hstanding.above.above.isDirectory
    · rename_i hdown
      obtain rfl := Option.some.inj hwalk
      by_cases hroot : middle ++ [last] = ["/"]
      · simp [above, hroot, isDirectory, entry?, alwaysThere]
      · simpa [above, hroot, hdown] using hstanding.isDirectory

/-- Where a file cannot be put into its directory, there is no file. -/
theorem file?_of_replace_eq_none {content : String}
    (hmade : disk.createDirectories (Backend.outputDirectory path) = some disk')
    (hreplace : disk'.replace path content = none) : disk'.file? path = none := by
  rcases hlocate : disk'.locate? path with _ | place
  · simp [file?, lookup?, hlocate]
  · have habove := isDirectory_above_of_locate? hmade hlocate
    have hplace : disk'.isDirectory place = false → Path.namesDirectory path = true := by
      simpa [replace, hlocate, habove] using hreplace
    -- What stands there is a directory, or it is not what the path names.
    rcases hentry : disk'.entry? place with _ | entry
    · simp [file?, lookup?, hlocate, hentry]
    · by_cases hdirectory : entry = .directory
      · simp [file?, lookup?, hlocate, hentry, hdirectory]
      · have hname := hplace (by simp [isDirectory, hentry, hdirectory])
        simp [file?, lookup?, hlocate, hentry, hname, hdirectory]

/-! ## A write that succeeds -/

/-- A new file takes the place of no directory. -/
theorem isDirectory_put {entry : DiskEntry} (hplace : disk.isDirectory found = false)
    (h : disk.isDirectory location = true) : (disk.put found entry).isDirectory location = true := by
  have hne : location ≠ found := by
    rintro rfl
    rw [hplace] at h
    cases h
  have hentry : Disk.entry? (disk.put found entry) location = disk.entry? location := by
    rw [ entry?, entry?, put, Entries.find?_insert_ne _ _ hne]
  simpa only [isDirectory, hentry] using h

/-- A file has the text that was put there; a path that can only name a directory names no file. -/
theorem read_replace {content : String} (hname : Path.namesDirectory path = false)
    (h : disk.replace path content = some disk') : disk'.read path = some content := by
  obtain ⟨place, hlocate, hput⟩ := Option.bind_eq_some_iff.1 h
  split at hput
  · rename_i hfree
    obtain rfl := Option.some.inj hput
    have hplace : disk.isDirectory place = false := by simpa using hfree.2.1
    have hfound : (disk.put place (.text content)).locate? path = some place :=
      locate?_of_isDirectory (fun _ => isDirectory_put hplace) hlocate
    -- What is always there is a directory, so the file does not stand in such a place.
    have hordinary : ¬ alwaysThere place = true := by
      intro hthere
      simp [isDirectory, entry?, hthere] at hplace
    have hentry : Disk.entry? (disk.put place (.text content)) place = some (.text content) := by
      rw [ entry?, if_neg hordinary, put, Entries.find?_insert_self]
    simp [read, lookup?, hfound, hentry, hname]
  · cases hput

/-! ## When a write succeeds -/

/-- A file can be written: its directory is there or can be made, and neither does a directory stand
at its place nor can the path only name one. -/
def Writable (disk : Disk) (path : String) : Prop :=
  ∃ made place, disk.createDirectories (Backend.outputDirectory path) = some made ∧
    made.locate? path = some place ∧ made.isDirectory place = false ∧
      Path.namesDirectory path = false

theorem grows_of_createDirectories (h : disk.createDirectories path = some disk') :
    Grows disk disk' := by
  rw [createDirectories] at h
  split at h
  · exact createAlong_grows h
  · cases h

theorem exists_replace_iff (hmade : disk.createDirectories (Backend.outputDirectory path) = some disk')
    (content : String) : (∃ written, disk'.replace path content = some written) ↔ disk.Writable path := by
  constructor
  · rintro ⟨written, hreplace⟩
    obtain ⟨place, hlocate, hput⟩ := Option.bind_eq_some_iff.1 hreplace
    split at hput
    · rename_i hfree
      exact ⟨disk', place, hmade, hlocate, by simpa using hfree.2.1, by simpa using hfree.2.2⟩
    · cases hput
  · rintro ⟨made, place, hcreated, hlocate, hplace, hname⟩
    obtain rfl := Option.some.inj (hcreated.symm.trans hmade)
    have habove := isDirectory_above_of_locate? hmade hlocate
    exact ⟨made.put place (.text content), by simp [replace, hlocate, habove, hplace, hname]⟩

end Disk

namespace Backend

variable {backend after : Backend} {path content : String} {error : BackendError}

/-- Both steps of a write, with all that they can come to. -/
theorem writeFile_apply (backend : Backend) (path content : String) :
    writeFile path content backend =
      match backend.disk.createDirectories (outputDirectory path) with
      | none => (.error (.inaccessible (outputDirectory path)), backend)
      | some made =>
          match made.replace path content with
          | none => (.error (.inaccessible path), { backend with disk := made })
          | some written => (.ok (), { backend with disk := written }) := by
  rw [writeFile, Stateful.get_bind]
  rcases backend.disk.createDirectories (outputDirectory path) with _ | made
  · rfl
  · dsimp only
    rw [Stateful.modify_bind]
    rcases made.replace path content with _ | written
    · rfl
    · rfl

theorem read_of_writeFile (hname : Path.namesDirectory path = false)
    (h : writeFile path content backend = (.ok (), after)) : after.disk.read path = some content := by
  rw [writeFile_apply] at h
  split at h
  · cases h
  · split at h
    · cases h
    · rename_i hreplace
      cases h
      exact Disk.read_replace hname hreplace

theorem frame_of_writeFile_ok (h : writeFile path content backend = (.ok (), after)) :
    ∃ disk, after = { backend with disk } := by
  rw [writeFile_apply] at h
  split at h
  · cases h
  · split at h
    · cases h
    · cases h
      exact ⟨_, rfl⟩

/-- What a failed write leaves: new directories at most, and the file as it was. -/
theorem file?_of_writeFile_error (h : writeFile path content backend = (.error error, after)) :
    ∃ disk, after = { backend with disk } ∧ disk.file? path = backend.disk.file? path := by
  rw [writeFile_apply] at h
  rcases hmade : backend.disk.createDirectories (outputDirectory path) with _ | made
  · rw [hmade] at h
    cases h
    exact ⟨backend.disk, rfl, rfl⟩
  · rw [hmade] at h
    rcases hreplace : made.replace path content with _ | written
    · simp only [hreplace] at h
      cases h
      -- There is no file now, and making directories removed none.
      have hgone : made.file? path = none := Disk.file?_of_replace_eq_none hmade hreplace
      have hgrows : Disk.Grows backend.disk made := Disk.grows_of_createDirectories hmade
      refine ⟨made, rfl, ?_⟩
      calc
        made.file? path = none := hgone
        _ = backend.disk.file? path := (hgrows.file?_eq_none hgone).symm
    · simp only [hreplace] at h
      cases h

theorem writeFile_of_writable (h : backend.disk.Writable path) (content : String) :
    ∃ disk, writeFile path content backend = (.ok (), { backend with disk }) ∧
      disk.read path = some content := by
  have ⟨made, _, hmade, _, _, hname⟩ := h
  obtain ⟨written, hreplace⟩ := (Disk.exists_replace_iff hmade content).2 h
  have hwrite : writeFile path content backend = (.ok (), { backend with disk := written }) := by
    rw [writeFile_apply, hmade]
    dsimp only
    rw [hreplace]
  exact ⟨written, hwrite, Disk.read_replace hname hreplace⟩

theorem writeFile_of_not_writable (h : ¬ backend.disk.Writable path) (content : String) :
    ∃ error disk, writeFile path content backend = (.error error, { backend with disk }) ∧
      backend.disk.Grows disk ∧ disk.file? path = backend.disk.file? path := by
  rcases hmade : backend.disk.createDirectories (outputDirectory path) with _ | made
  · refine ⟨.inaccessible (outputDirectory path), backend.disk, ?_, Disk.Grows.refl _, rfl⟩
    rw [writeFile_apply, hmade]
  · have hreplace : made.replace path content = none := by
      rw [Option.eq_none_iff_forall_ne_some]
      exact fun written hwritten => h ((Disk.exists_replace_iff hmade content).1 ⟨written, hwritten⟩)
    have hwrite : writeFile path content backend =
        (.error (.inaccessible path), { backend with disk := made }) := by
      rw [writeFile_apply, hmade]
      dsimp only
      rw [hreplace]
    have hgrows := Disk.grows_of_createDirectories hmade
    have hgone : made.file? path = none := Disk.file?_of_replace_eq_none hmade hreplace
    exact ⟨.inaccessible path, made, hwrite, hgrows, hgone.trans (hgrows.file?_eq_none hgone).symm⟩

end Backend

end ProjectCompiler
