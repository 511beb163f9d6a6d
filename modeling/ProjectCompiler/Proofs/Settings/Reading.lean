import Mathlib.Algebra.Ring.Int.Defs
import ProjectCompiler.Manifest.Decode
import ProjectCompiler.Proofs.Toml.Ordered

/-!
# Reading — what settings make of the values of a document

Settings have a kind of their own for truth values, whole numbers of 64 bits, floating point numbers, texts,
arrays and tables. A value of one of these kinds is read as what it is, on every level. Two kinds of values
have no such place and are accepted all the same: a whole number that fits 64 bits only without a sign turns
into a floating point number, and a moment into a table. What was written cannot be told from the setting
then, as other values are read as the same one.

- `Value.toToml`: how a setting is written;
- `Toml.Within`: the parts of a value, on every level;
- `Toml.replaced`: the value that a setting is read as in place of another;
- `Toml.settings_read_faithfully`: which values are read, and which of them are read as what they are.
-/

namespace ProjectCompiler

/-! ## Writing settings -/

namespace Value

mutual

/-- The value that writes a setting, of the same kind and with the same content. -/
def toToml : Value → Toml
  | .bool b => .bool b
  | .int n => .integer (some n.toInt)
  | .float x => .float (some x)
  | .str text => .str text
  | .list items => .array (itemsToToml items)
  | .table entries => .table (entriesToToml entries)

def itemsToToml : List Value → List Toml
  | [] => []
  | item :: rest => toToml item :: itemsToToml rest

def entriesToToml : List (String × Value) → List (String × Toml)
  | [] => []
  | (name, value) :: rest => (name, toToml value) :: entriesToToml rest

end

end Value

namespace Toml

/-! ## Parts of a value -/

/-- The part is the value, or an item or an entry of it, on any level. -/
inductive Within (part : Toml) : Toml → Prop
  | self : Within part part
  | item {items : List Toml} {item : Toml} (hmem : item ∈ items) (h : Within part item) :
      Within part (.array items)
  | entry {entries : List (String × Toml)} {entry : String × Toml} (hmem : entry ∈ entries)
      (h : Within part entry.2) : Within part (.table entries)

/-- All parts of the value have the property. -/
def Throughout (P : Toml → Prop) (value : Toml) : Prop :=
  ∀ part, Within part value → P part

/-- A number exists, and a whole number has 64 bits with or without a sign. -/
def Fits : Toml → Prop
  | .integer (some n) => -2 ^ 63 ≤ n ∧ n < 2 ^ 64
  | .integer none | .float none => False
  | _ => True

/-- Settings have a kind for the value: it is no moment, and a whole number has 64 bits with a sign. -/
def Lasts : Toml → Prop
  | .integer (some n) => -2 ^ 63 ≤ n ∧ n < 2 ^ 63
  | .integer none | .float none | .moment _ => False
  | _ => True

mutual

/-- What a value is read as: a whole number beyond 64 bits with a sign is the floating point number next to
it, and a moment is a table with its text. -/
def replaced : Toml → Toml
  | .integer (some n) =>
      if n < 2 ^ 63 then .integer (some n) else .float (some (Binary64.ofNat n.toNat))
  | .moment m => .table [(momentName, .str m.text)]
  | .array items => .array (replacedItems items)
  | .table entries => .table (replacedEntries entries)
  | value => value

def replacedItems : List Toml → List Toml
  | [] => []
  | item :: rest => replaced item :: replacedItems rest

def replacedEntries : List (String × Toml) → List (String × Toml)
  | [] => []
  | (name, value) :: rest => (name, replaced value) :: replacedEntries rest

end

section Parts

variable {P : Toml → Prop}

/-- A value without parts is its only part. -/
theorem throughout_plain {value : Toml} (hplain : value.Plain) : Throughout P value ↔ P value := by
  constructor
  · intro h
    exact h value .self
  · rintro h part hpart
    cases hpart with
    | self => exact h
    | item => exact hplain.elim
    | entry => exact hplain.elim

theorem throughout_array {items : List Toml} :
    Throughout P (.array items) ↔ P (.array items) ∧ ∀ item ∈ items, Throughout P item := by
  constructor
  · intro h
    exact ⟨h _ .self, fun item hmem part hpart => h part (.item hmem hpart)⟩
  · rintro ⟨hwhole, hitems⟩ part hpart
    cases hpart with
    | self => exact hwhole
    | item hmem hpart => exact hitems _ hmem part hpart

theorem throughout_table {entries : List (String × Toml)} :
    Throughout P (.table entries) ↔
      P (.table entries) ∧ ∀ entry ∈ entries, Throughout P entry.2 := by
  constructor
  · intro h
    exact ⟨h _ .self, fun entry hmem part hpart => h part (.entry hmem hpart)⟩
  · rintro ⟨hwhole, hentries⟩ part hpart
    cases hpart with
    | self => exact hwhole
    | entry hmem hpart => exact hentries _ hmem part hpart

end Parts

/-! ## Reading -/

section Lists

variable {item : Toml} {rest : List Toml} {name : String} {more : List (String × Toml)}

theorem toValues_cons_eq_ok {values : List Value} : toValues (item :: rest) = .ok values ↔
    ∃ value others, toValue item = .ok value ∧ toValues rest = .ok others ∧
      values = value :: others := by
  rw [toValues]
  rcases toValue item with fault | value
  · simp [bind, Except.bind]
  · rcases toValues rest with fault | others
    · simp [bind, Except.bind]
    · simp [bind, Except.bind, pure, Except.pure, eq_comm]

theorem toEntries_cons_eq_ok {entries : List (String × Value)} :
    toEntries ((name, item) :: more) = .ok entries ↔
      ∃ value others, toValue item = .ok value ∧ toEntries more = .ok others ∧
        entries = (name, value) :: others := by
  rw [toEntries]
  rcases toValue item with fault | value
  · simp [bind, Except.bind]
  · rcases toEntries more with fault | others
    · simp [bind, Except.bind]
    · simp [bind, Except.bind, pure, Except.pure, eq_comm]

theorem toValue_array_eq_ok {items : List Toml} {value : Value} :
    toValue (.array items) = .ok value ↔ ∃ values, toValues items = .ok values ∧
      value = .list values := by
  rw [toValue]
  rcases toValues items with fault | values
  · simp [bind, Except.bind]
  · simp [bind, Except.bind, pure, Except.pure, eq_comm]

theorem toValue_table_eq_ok {entries : List (String × Toml)} {value : Value} :
    toValue (.table entries) = .ok value ↔ ∃ values, toEntries entries = .ok values ∧
      value = .table values := by
  rw [toValue]
  rcases toEntries entries with fault | values
  · simp [bind, Except.bind]
  · simp [bind, Except.bind, pure, Except.pure, eq_comm]

end Lists

theorem fitsSigned_iff {n : Int} : Width.fitsSigned 64 n = true ↔ -2 ^ 63 ≤ n ∧ n < 2 ^ 63 := by
  simp [Width.fitsSigned]

theorem fitsUnsigned_iff {n : Int} : Width.fitsUnsigned 64 n = true ↔ 0 ≤ n ∧ n < 2 ^ 64 := by
  simp [Width.fitsUnsigned]

/-- The three ways of a whole number: it stays one, it becomes a floating point number, or it is refused. -/
theorem toValue_integer (n : Int) :
    (-2 ^ 63 ≤ n ∧ n < 2 ^ 63 ∧ toValue (.integer (some n)) = .ok (.int (Int64.ofInt n))) ∨
      (2 ^ 63 ≤ n ∧ n < 2 ^ 64 ∧
        toValue (.integer (some n)) = .ok (.float (Binary64.ofNat n.toNat))) ∨
      ((n < -2 ^ 63 ∨ 2 ^ 64 ≤ n) ∧ ∃ fault, toValue (.integer (some n)) = .error fault) := by
  rw [toValue]
  by_cases hsigned : Width.fitsSigned 64 n = true
  · obtain ⟨hlow, hhigh⟩ := fitsSigned_iff.1 hsigned
    exact .inl ⟨hlow, hhigh, by rw [if_pos hsigned]⟩
  · rw [if_neg hsigned]
    rw [fitsSigned_iff] at hsigned
    by_cases hunsigned : Width.fitsUnsigned 64 n = true
    · obtain ⟨hlow, hhigh⟩ := fitsUnsigned_iff.1 hunsigned
      exact .inr (.inl ⟨by omega, hhigh, by rw [if_pos hunsigned]⟩)
    · rw [if_neg hunsigned]
      rw [fitsUnsigned_iff] at hunsigned
      exact .inr (.inr ⟨by omega, _, rfl⟩)

/-! ### What is accepted -/

theorem exists_toValue_of_plain {found : Toml} (hplain : found.Plain) :
    (∃ value, toValue found = .ok value) ↔ Throughout Fits found := by
  rw [throughout_plain hplain]
  cases found with
  | integer n =>
    cases n with
    | none => simp [toValue, Fits]
    | some n =>
      rcases toValue_integer n with ⟨hlow, hhigh, hread⟩ | ⟨hlow, hhigh, hread⟩ | ⟨hout, fault, hread⟩
      · simp only [hread, Fits, Except.ok.injEq, exists_eq', true_iff]
        omega
      · simp only [hread, Fits, Except.ok.injEq, exists_eq', true_iff]
        omega
      · simp only [hread, Fits, reduceCtorEq, exists_false, false_iff]
        omega
  | float x => cases x <;> simp [toValue, Fits]
  | array items => exact hplain.elim
  | table entries => exact hplain.elim
  | _ => simp [toValue, Fits]

mutual

/-- A value is accepted exactly if all numbers in it fit. -/
theorem exists_toValue_iff : ∀ found : Toml,
    (∃ value, toValue found = .ok value) ↔ Throughout Fits found
  | .str _ | .integer _ | .float _ | .bool _ | .moment _ => exists_toValue_of_plain trivial
  | .array items => by
      rw [throughout_array, ← exists_toValues_iff items]
      simp [toValue_array_eq_ok, Fits]
  | .table entries => by
      rw [throughout_table, ← exists_toEntries_iff entries]
      simp [toValue_table_eq_ok, Fits]

theorem exists_toValues_iff : ∀ items : List Toml,
    (∃ values, toValues items = .ok values) ↔ ∀ item ∈ items, Throughout Fits item
  | [] => by simp [toValues]
  | item :: rest => by
      rw [List.forall_mem_cons, ← exists_toValue_iff item, ← exists_toValues_iff rest]
      simp [toValues_cons_eq_ok]

theorem exists_toEntries_iff : ∀ entries : List (String × Toml),
    (∃ values, toEntries entries = .ok values) ↔ ∀ entry ∈ entries, Throughout Fits entry.2
  | [] => by simp [toEntries]
  | (name, item) :: rest => by
      rw [List.forall_mem_cons, ← exists_toValue_iff item, ← exists_toEntries_iff rest]
      simp [toEntries_cons_eq_ok]

end

/-! ### What it is read as -/

theorem toToml_of_plain {found : Toml} {value : Value} (h : toValue found = .ok value)
    (hplain : found.Plain) : value.toToml = replaced found := by
  cases found with
  | integer n =>
    cases n with
    | none => cases h
    | some n =>
      rw [replaced]
      rcases toValue_integer n with ⟨hlow, hhigh, hread⟩ | ⟨hlow, hhigh, hread⟩ | ⟨hout, fault, hread⟩
      · rw [if_pos hhigh]
        cases hread.symm.trans h
        rw [Value.toToml, Int64.toInt_ofInt_of_le hlow hhigh]
      · rw [if_neg (by omega)]
        cases hread.symm.trans h
        rfl
      · cases hread.symm.trans h
  | float x =>
    cases x with
    | none => cases h
    | some x =>
      cases h
      rfl
  | array items => exact hplain.elim
  | table entries => exact hplain.elim
  | _ =>
    cases h
    rfl

mutual

/-- A setting that was read is written as the value, but for what is replaced. -/
theorem toToml_of_toValue : ∀ {found : Toml} {value : Value}, toValue found = .ok value →
    value.toToml = replaced found
  | .str _, _, h | .integer _, _, h | .float _, _, h | .bool _, _, h | .moment _, _, h =>
      toToml_of_plain h trivial
  | .array items, value, h => by
      obtain ⟨values, hvalues, rfl⟩ := toValue_array_eq_ok.1 h
      rw [Value.toToml, replaced, toToml_of_toValues hvalues]
  | .table entries, value, h => by
      obtain ⟨values, hvalues, rfl⟩ := toValue_table_eq_ok.1 h
      rw [Value.toToml, replaced, toToml_of_toEntries hvalues]

theorem toToml_of_toValues : ∀ {items : List Toml} {values : List Value},
    toValues items = .ok values → Value.itemsToToml values = replacedItems items
  | [], _, h => by
      cases h
      rfl
  | item :: rest, _, h => by
      obtain ⟨value, others, hvalue, hothers, rfl⟩ := toValues_cons_eq_ok.1 h
      rw [Value.itemsToToml, replacedItems, toToml_of_toValue hvalue, toToml_of_toValues hothers]

theorem toToml_of_toEntries : ∀ {entries : List (String × Toml)} {values : List (String × Value)},
    toEntries entries = .ok values → Value.entriesToToml values = replacedEntries entries
  | [], _, h => by
      cases h
      rfl
  | (name, item) :: rest, _, h => by
      obtain ⟨value, others, hvalue, hothers, rfl⟩ := toEntries_cons_eq_ok.1 h
      rw [Value.entriesToToml, replacedEntries, toToml_of_toValue hvalue, toToml_of_toEntries hothers]

end

/-! ### What is read as what it is -/

theorem replaced_of_plain {found : Toml} (hplain : found.Plain) (hfits : found.Fits) :
    replaced found = found ↔ Throughout Lasts found := by
  rw [throughout_plain hplain]
  cases found with
  | integer n =>
    cases n with
    | none => exact hfits.elim
    | some n =>
      rw [replaced]
      split
      · rename_i hsigned
        exact iff_of_true rfl ⟨hfits.1, hsigned⟩
      · rename_i hunsigned
        exact iff_of_false nofun fun hlasts => hunsigned hlasts.2
  | float x =>
    cases x with
    | none => exact hfits.elim
    | some x => exact iff_of_true rfl trivial
  | moment m => exact iff_of_false nofun fun hlasts => hlasts
  | array items => exact hplain.elim
  | table entries => exact hplain.elim
  | _ => exact iff_of_true rfl trivial

mutual

theorem replaced_eq_self_iff : ∀ {found : Toml}, Throughout Fits found →
    (replaced found = found ↔ Throughout Lasts found)
  | .str _, h | .integer _, h | .float _, h | .bool _, h | .moment _, h =>
      replaced_of_plain trivial (h _ .self)
  | .array items, h => by
      rw [throughout_array, ← replacedItems_eq_self_iff (throughout_array.1 h).2]
      simp [replaced, Lasts]
  | .table entries, h => by
      rw [throughout_table, ← replacedEntries_eq_self_iff (throughout_table.1 h).2]
      simp [replaced, Lasts]

theorem replacedItems_eq_self_iff : ∀ {items : List Toml}, (∀ item ∈ items, Throughout Fits item) →
    (replacedItems items = items ↔ ∀ item ∈ items, Throughout Lasts item)
  | [], _ => by simp [replacedItems]
  | item :: rest, h => by
      obtain ⟨hitem, hrest⟩ := List.forall_mem_cons.1 h
      rw [List.forall_mem_cons, ← replaced_eq_self_iff hitem, ← replacedItems_eq_self_iff hrest,
        replacedItems, List.cons.injEq]

theorem replacedEntries_eq_self_iff : ∀ {entries : List (String × Toml)},
    (∀ entry ∈ entries, Throughout Fits entry.2) →
      (replacedEntries entries = entries ↔ ∀ entry ∈ entries, Throughout Lasts entry.2)
  | [], _ => by simp [replacedEntries]
  | (name, item) :: rest, h => by
      obtain ⟨hitem, hrest⟩ := List.forall_mem_cons.1 h
      rw [List.forall_mem_cons, ← replaced_eq_self_iff hitem, ← replacedEntries_eq_self_iff hrest,
        replacedEntries]
      simp

end

/-! ### What is written -/

mutual

/-- A setting that is written is read as itself. -/
theorem toValue_toToml : ∀ value : Value, toValue value.toToml = .ok value
  | .int n => by
      rcases toValue_integer n.toInt with ⟨-, -, hread⟩ | ⟨hlow, -, -⟩ | ⟨hout, -⟩
      · rw [Value.toToml, hread, Int64.ofInt_toInt]
      · exact absurd n.toInt_lt (by omega)
      · have hlow := n.le_toInt
        have hhigh := n.toInt_lt
        omega
  | .bool _ | .float _ | .str _ => rfl
  | .list items => by
      rw [Value.toToml, toValue_array_eq_ok]
      exact ⟨items, toValues_itemsToToml items, rfl⟩
  | .table entries => by
      rw [Value.toToml, toValue_table_eq_ok]
      exact ⟨entries, toEntries_entriesToToml entries, rfl⟩

theorem toValues_itemsToToml : ∀ items : List Value, toValues (Value.itemsToToml items) = .ok items
  | [] => rfl
  | item :: rest => by
      rw [Value.itemsToToml, toValues_cons_eq_ok]
      exact ⟨item, rest, toValue_toToml item, toValues_itemsToToml rest, rfl⟩

theorem toEntries_entriesToToml : ∀ entries : List (String × Value),
    toEntries (Value.entriesToToml entries) = .ok entries
  | [] => rfl
  | (name, value) :: rest => by
      rw [Value.entriesToToml, toEntries_cons_eq_ok]
      exact ⟨value, rest, toValue_toToml value, toEntries_entriesToToml rest, rfl⟩

end

/-- A setting is told by the value that writes it. -/
theorem toToml_inj {value other : Value} (h : value.toToml = other.toToml) : value = other := by
  have hread : (.ok value : Decoded Value) = .ok other := by
    calc .ok value = toValue value.toToml := (toValue_toToml value).symm
      _ = toValue other.toToml := by rw [h]
      _ = .ok other := toValue_toToml other
  exact Except.ok.inj hread

/-- A value is accepted as a setting exactly if all numbers in it exist and whole numbers have 64 bits, with or
without a sign. It is read as what it is, on every level, exactly if no whole number in it reaches 2 ^ 63 and no
moment is in it; such a whole number is read as a floating point number, and a moment as a table with its text.
Two values are read as the same setting only if they are equal once this is done, so that without such parts
they were equal before. What writes the setting is read as it again. -/
theorem settings_read_faithfully (found : Toml) :
    ((∃ value, found.toValue = .ok value) ↔ Throughout Fits found) ∧
    ∀ value : Value, found.toValue = .ok value →
      value.toToml = found.replaced ∧ (value.toToml = found ↔ Throughout Lasts found) ∧
      value.toToml.toValue = .ok value ∧
      ∀ other : Toml, Throughout Fits other →
        (other.toValue = .ok value ↔ other.replaced = found.replaced) ∧
          (Throughout Lasts found → Throughout Lasts other → other.toValue = .ok value →
            other = found) := by
  refine ⟨exists_toValue_iff found, fun value h => ?_⟩
  have hsame : ∀ {found : Toml}, found.toValue = .ok value →
      (value.toToml = found ↔ Throughout Lasts found) := by
    intro found h
    rw [toToml_of_toValue h]
    exact replaced_eq_self_iff ((exists_toValue_iff found).1 ⟨value, h⟩)
  refine ⟨toToml_of_toValue h, hsame h, toValue_toToml value, fun other hfits => ⟨⟨fun hother => ?_,
    fun heq => ?_⟩, ?_⟩⟩
  · exact (toToml_of_toValue hother).symm.trans (toToml_of_toValue h)
  · obtain ⟨value', hother⟩ := (exists_toValue_iff other).2 hfits
    have hwritten : value'.toToml = value.toToml := by
      rw [toToml_of_toValue hother, heq, toToml_of_toValue h]
    rwa [toToml_inj hwritten] at hother
  · intro hfound hlasts hother
    exact ((hsame hother).2 hlasts).symm.trans ((hsame h).2 hfound)

/-- Two whole numbers become one floating point number, and a date in a list becomes a table. -/
theorem wide_numbers_read_alike :
    let limits (n : Int) : Toml := .table
      [("LIMIT", .integer (some n)), ("SINCE", .array [.moment (.date ⟨1979, 5, 27⟩)])]
    let value : Value := .table [("LIMIT", .float ⟨0x43e0000000000000⟩),
      ("SINCE", .list [.table [("$__toml_private_datetime", .str "1979-05-27")]])]
    (limits (2 ^ 63)).toValue = .ok value ∧ (limits (2 ^ 63 + 1)).toValue = .ok value ∧
      value.toToml ≠ limits (2 ^ 63) ∧ ¬ Throughout Lasts (limits (2 ^ 63)) := by
  intro limits value
  have hread : ∀ n : Int, n = 2 ^ 63 ∨ n = 2 ^ 63 + 1 → (limits n).toValue = .ok value := by
    rintro n (rfl | rfl) <;> rfl
  obtain ⟨-, hsettings⟩ := settings_read_faithfully (limits (2 ^ 63))
  obtain ⟨-, hsame, -⟩ := hsettings value (hread (2 ^ 63) (.inl rfl))
  have hlost : ¬ Throughout Lasts (limits (2 ^ 63)) := by
    intro hlasts
    exact absurd (hlasts _ (.entry List.mem_cons_self .self)).2 (by decide)
  exact ⟨hread _ (.inl rfl), hread _ (.inr rfl), fun heq => hlost (hsame.1 heq), hlost⟩

end Toml

end ProjectCompiler
