import ProjectCompiler.Json.Reader
import ProjectCompiler.Json.Writer

/-!
# Reading — written values are read back

The writer puts every item and member on a line of its own and escapes what may not stand in a text.
The reader passes over the line ends and undoes the escapes, so it gives back the value that was
written, and what follows that value is left to it.

- `Json.readText_escaped`: a text in quotes, whatever its characters are;
- `Json.ReadsBack`: a value that the reader gives back from what the writer makes of it, at any level
  of indentation and before any rest: null, texts, and arrays and objects of such values;
- `Json.parse?_pretty`: such a value as a whole document.
-/

namespace ProjectCompiler

namespace Json

/-! ## Texts -/

theorem hexadecimal?_hexDigit : ∀ n < 16, Digit.hexadecimal? (hexDigit n) = some n := by
  decide

/-- A control character is written by its number, which has two digits. -/
theorem readUnicode_control {c : Char} (h : c.toNat < 32) (rest : List Char) :
    readUnicode ('0' :: '0' :: hexDigit (c.toNat / 16) :: hexDigit (c.toNat % 16) :: rest) =
      some (some c, rest) := by
  have hzero : Digit.hexadecimal? '0' = some 0 := by decide
  have hfirst := hexadecimal?_hexDigit (c.toNat / 16) (by omega)
  have hsecond := hexadecimal?_hexDigit (c.toNat % 16) (by omega)
  have hnumber : ((0 * 16 + 0) * 16 + c.toNat / 16) * 16 + c.toNat % 16 = c.toNat := by omega
  have hdigits : fourDigits ('0' :: '0' :: hexDigit (c.toNat / 16) :: hexDigit (c.toNat % 16) ::
      rest) = some (c.toNat, rest) := by
    simp only [fourDigits, hzero, hfirst, hsecond, Option.bind_eq_bind, Option.bind_some,
      Option.pure_def, hnumber]
  -- Numbers as small as this are no halves of a pair.
  have hhigh : isHighSurrogate c.toNat = false := by simp [isHighSurrogate]; omega
  have hlow : isLowSurrogate c.toNat = false := by simp [isLowSurrogate]; omega
  simp [readUnicode, hdigits, hhigh, hlow]

/-- What is written for a character is read as that character. -/
theorem readCharacters_escape (fuel : Nat) (c : Char) (input : List Char) :
    readCharacters (fuel + 1) (escape c ++ input) =
      (readCharacters fuel input).map fun found => (extend (some c) found.1, found.2) := by
  have hescape : ∀ (mark : Char) (body : List Char), readEscape (mark :: body) = some (some c, input) →
      readCharacters (fuel + 1) ('\\' :: mark :: body) =
        (readCharacters fuel input).map fun found => (extend (some c) found.1, found.2) := by
    intro mark body hread
    rw [readCharacters, if_neg (by decide), if_pos rfl, hread, Option.bind_eq_bind, Option.bind_some]
    dsimp only
    rcases readCharacters fuel input with _ | found <;> rfl
  have hof : ∀ n, c.toNat = n → Char.ofNat n = c := by
    rintro n rfl
    exact Char.ofNat_toNat c
  unfold escape
  -- One case for each way of writing, in the order in which the writer looks for them.
  split
  · rename_i hquote
    exact hescape '"' input (by rw [hquote]; rfl)
  split
  · rename_i hbackslash
    exact hescape '\\' input (by rw [hbackslash]; rfl)
  split
  · rename_i hnumber
    exact hescape 'b' input (by rw [← hof 8 hnumber]; rfl)
  split
  · rename_i hnumber
    exact hescape 't' input (by rw [← hof 9 hnumber]; rfl)
  split
  · rename_i hnumber
    exact hescape 'n' input (by rw [← hof 10 hnumber]; rfl)
  split
  · rename_i hnumber
    exact hescape 'f' input (by rw [← hof 12 hnumber]; rfl)
  split
  · rename_i hnumber
    exact hescape 'r' input (by rw [← hof 13 hnumber]; rfl)
  split
  · rename_i hcontrol
    exact hescape 'u' _ (readUnicode_control hcontrol input)
  · rename_i hquote hbackslash _ _ _ _ _ hplain
    rw [List.singleton_append, readCharacters, if_neg hquote, if_neg hbackslash, if_neg hplain]
    rcases readCharacters fuel input with _ | found <;> rfl

theorem readCharacters_escaped (text rest : List Char) {fuel : Nat} (h : text.length < fuel) :
    readCharacters fuel (text.flatMap escape ++ '"' :: rest) = some (some text, rest) := by
  induction text generalizing fuel with
  | nil =>
    obtain ⟨fuel, rfl⟩ : ∃ n, fuel = n + 1 := ⟨fuel - 1, by simp at h; omega⟩
    rfl
  | cons c text ih =>
    obtain ⟨fuel, rfl⟩ : ∃ n, fuel = n + 1 := ⟨fuel - 1, by simp at h; omega⟩
    have hrest := @ih fuel (by simpa using h)
    rw [List.flatMap_cons, List.append_assoc, readCharacters_escape, hrest]
    rfl

theorem escape_ne_nil (c : Char) : escape c ≠ [] := by
  unfold escape
  repeat' split
  all_goals exact List.cons_ne_nil _ _

theorem length_le_escaped (text : List Char) : text.length ≤ (text.flatMap escape).length := by
  induction text with
  | nil => exact Nat.le_refl 0
  | cons c text ih =>
    have hc := List.length_pos_iff.2 (escape_ne_nil c)
    simp only [List.flatMap_cons, List.length_append, List.length_cons]
    omega

/-- A text is read up to its closing quote. -/
theorem readText_escaped (text : String) (rest : List Char) :
    readText (text.toList.flatMap escape ++ '"' :: rest) = some (some text, rest) := by
  have hlength := length_le_escaped text.toList
  have hfuel : text.toList.length <
      (text.toList.flatMap escape ++ '"' :: rest).length + 1 := by
    rw [List.length_append]
    omega
  rw [readText, readCharacters_escaped text.toList rest hfuel]
  simp

theorem quote_append (text : String) (rest : List Char) :
    quote (some text) ++ rest = '"' :: (text.toList.flatMap escape ++ '"' :: rest) := by
  simp [quote]

/-! ## Blanks -/

theorem skipBlanks_newline (level : Nat) (input : List Char) :
    skipBlanks (newline level ++ input) = skipBlanks input := by
  have hspaces : ∀ count, skipBlanks (List.replicate count ' ' ++ input) = skipBlanks input := by
    intro count
    induction count with
    | zero => rfl
    | succ count ih => exact ih
  exact hspaces (2 * level)

/-! ## Values -/

/-- What is written for the value is read as the value, whatever comes behind it. A reader that goes
no deeper than the text is long goes deep enough. -/
structure ReadsBack (json : Json) : Prop where
  /-- The value starts with a character of its own, which no blank and no bracket is. -/
  opening : ∀ level, ∃ first rest, write level json = first :: rest ∧
    isBlank first = false ∧ first ≠ ']'
  value : ∀ level fuel rest, (write level json).length ≤ fuel →
    readValue fuel (write level json ++ rest) = some (json, rest)

namespace ReadsBack

theorem skipBlanks_write {json : Json} (h : json.ReadsBack) (level : Nat) (rest : List Char) :
    skipBlanks (write level json ++ rest) = write level json ++ rest := by
  obtain ⟨first, body, hwrite, hblank, -⟩ := h.opening level
  rw [hwrite, List.cons_append, skipBlanks, List.dropWhile_cons, hblank]
  rfl

theorem null : ReadsBack .null where
  opening _ := ⟨_, _, rfl, by decide, by decide⟩
  value level fuel rest h := by
    obtain ⟨fuel, rfl⟩ : ∃ n, fuel = n + 1 := ⟨fuel - 1, by simp [write] at h; omega⟩
    have hdrop : ('n' :: 'u' :: 'l' :: 'l' :: rest).drop "null".length = rest := rfl
    simp [write, readValue, readWord, List.isPrefixOf, hdrop]

theorem str (text : String) : ReadsBack (.str (some text)) where
  opening _ := ⟨_, _, rfl, by decide, by decide⟩
  value level fuel rest h := by
    obtain ⟨fuel, rfl⟩ : ∃ n, fuel = n + 1 := ⟨fuel - 1, by simp [write, quote] at h; omega⟩
    rw [write, quote_append, readValue, readText_escaped]
    rfl

/-- The items of an array up to its closing bracket. -/
theorem readItems_write {items : List Json} (h : ∀ item ∈ items, item.ReadsBack) {item : Json}
    (hitem : item.ReadsBack) (level outer : Nat) (rest : List Char) (fuel : Nat)
    (hfuel : (write level item).length + (writeItems level items).length < fuel) :
    readItems fuel (write level item ++ (writeItems level items ++ (newline outer ++ ']' :: rest))) =
      some (item :: items, rest) := by
  induction items generalizing item fuel with
  | nil =>
    obtain ⟨fuel, rfl⟩ : ∃ n, fuel = n + 1 := ⟨fuel - 1, by omega⟩
    rw [readItems, hitem.value level fuel _ (by omega)]
    simp only [writeItems, List.nil_append, Option.bind_eq_bind, Option.bind_some,
      skipBlanks_newline]
    rfl
  | cons next items ih =>
    obtain ⟨fuel, rfl⟩ : ∃ n, fuel = n + 1 := ⟨fuel - 1, by omega⟩
    have hnext := h next List.mem_cons_self
    obtain ⟨first, body, hwrite, -⟩ := hitem.opening level
    have hlength : 1 ≤ (write level item).length := by simp [hwrite]
    simp only [writeItems, List.cons_append, List.length_cons, List.length_append] at hfuel
    have hitems := ih (fun other hother => h other (List.mem_cons_of_mem _ hother)) hnext fuel
      (by omega)
    rw [readItems, hitem.value level fuel _ (by omega)]
    simp only [writeItems, List.cons_append, List.append_assoc, Option.bind_eq_bind,
      Option.bind_some]
    -- The comma is no blank, and behind it stands the next item on its own line.
    have hcomma : ∀ input, skipBlanks (',' :: input) = ',' :: input := fun _ => rfl
    simp only [hcomma, skipBlanks_newline, hnext.skipBlanks_write, hitems, Option.bind_some]
    rfl

theorem array {items : List Json} (h : ∀ item ∈ items, item.ReadsBack) :
    ReadsBack (.array items) where
  opening _ := by
    cases items with
    | nil => exact ⟨_, _, rfl, by decide, by decide⟩
    | cons item items => exact ⟨'[', _, by rw [write]; rfl, by decide, by decide⟩
  value level fuel rest hfuel := by
    cases items with
    | nil =>
      obtain ⟨fuel, rfl⟩ : ∃ n, fuel = n + 1 := ⟨fuel - 1, by simp [write] at hfuel; omega⟩
      rfl
    | cons item items =>
      obtain ⟨fuel, rfl⟩ : ∃ n, fuel = n + 1 := ⟨fuel - 1, by simp [write] at hfuel; omega⟩
      have hitem := h item List.mem_cons_self
      simp only [write, List.cons_append, List.append_assoc, List.length_cons, List.length_append]
        at hfuel ⊢
      have hitems := readItems_write (fun other hother => h other (List.mem_cons_of_mem _ hother))
        hitem (level + 1) level rest fuel (by omega)
      rw [readValue]
      simp only [skipBlanks_newline, hitem.skipBlanks_write]
      -- An item does not start with the bracket that would end an empty array.
      obtain ⟨first, body, hwrite, -, hbracket⟩ := hitem.opening (level + 1)
      rw [hwrite] at hitems ⊢
      simp only [List.cons_append, List.nil_append] at hitems ⊢
      split
      · rename_i heq
        exact absurd (List.cons.inj heq).1 hbracket
      · rw [hitems]
        rfl

/-- The members of an object, the first one after its name and the colon, up to the closing brace. -/
theorem readMembers_write {members : List (String × Json)}
    (h : ∀ member ∈ members, member.2.ReadsBack) (name : String) {value : Json}
    (hvalue : value.ReadsBack) (level outer : Nat) (rest : List Char) (fuel : Nat)
    (hfuel : (write level value).length +
      (writeMembers level (members.map fun member => (some member.1, member.2))).length < fuel) :
    readMembers fuel (quote (some name) ++ ':' :: ' ' :: (write level value ++
        (writeMembers level (members.map fun member => (some member.1, member.2)) ++
          (newline outer ++ '}' :: rest)))) =
      some ((some name, value) :: members.map fun member => (some member.1, member.2), rest) := by
  have hcolon : ∀ input, skipBlanks (':' :: input) = ':' :: input := fun _ => rfl
  have hspace : ∀ input, skipBlanks (' ' :: input) = skipBlanks input := fun _ => rfl
  have hcomma : ∀ input, skipBlanks (',' :: input) = ',' :: input := fun _ => rfl
  induction members generalizing name value fuel with
  | nil =>
    obtain ⟨fuel, rfl⟩ : ∃ n, fuel = n + 1 := ⟨fuel - 1, by omega⟩
    simp only [quote_append, readMembers, readText_escaped, Option.bind_eq_bind, Option.bind_some,
      hcolon, hspace, hvalue.skipBlanks_write]
    rw [hvalue.value level fuel _ (by omega)]
    simp only [List.map_nil, writeMembers, List.nil_append, Option.bind_some, skipBlanks_newline]
    rfl
  | cons next members ih =>
    obtain ⟨fuel, rfl⟩ : ∃ n, fuel = n + 1 := ⟨fuel - 1, by omega⟩
    obtain ⟨first, body, hwrite, -⟩ := hvalue.opening level
    have hlength : 1 ≤ (write level value).length := by simp [hwrite]
    simp only [List.map_cons, writeMembers, List.cons_append, List.length_cons,
      List.length_append] at hfuel
    have hmembers := ih (fun other hother => h other (List.mem_cons_of_mem _ hother)) next.1
      (h next List.mem_cons_self) fuel (by omega)
    simp only [quote_append, readMembers, readText_escaped, Option.bind_eq_bind, Option.bind_some,
      hcolon, hspace, hvalue.skipBlanks_write]
    rw [hvalue.value level fuel _ (by omega)]
    simp only [List.map_cons, writeMembers, List.cons_append, List.append_assoc, Option.bind_some,
      hcomma, skipBlanks_newline]
    have hquote : ∀ input, skipBlanks (quote (some next.1) ++ input) = quote (some next.1) ++ input :=
      fun _ => rfl
    rw [hquote, hmembers]
    rfl

theorem object {members : List (String × Json)} (h : ∀ member ∈ members, member.2.ReadsBack) :
    ReadsBack (.object (members.map fun member => (some member.1, member.2))) where
  opening _ := by
    cases members with
    | nil => exact ⟨_, _, rfl, by decide, by decide⟩
    | cons member members => exact ⟨'\x7b', _, by rw [List.map_cons, write]; rfl, by decide, by decide⟩
  value level fuel rest hfuel := by
    cases members with
    | nil =>
      obtain ⟨fuel, rfl⟩ : ∃ n, fuel = n + 1 := ⟨fuel - 1, by simp [write] at hfuel; omega⟩
      rfl
    | cons member members =>
      obtain ⟨fuel, rfl⟩ : ∃ n, fuel = n + 1 := ⟨fuel - 1, by simp [write] at hfuel; omega⟩
      simp only [List.map_cons, write, List.cons_append, List.append_assoc, List.length_cons,
        List.length_append] at hfuel ⊢
      have hmembers := readMembers_write (fun other hother => h other (List.mem_cons_of_mem _ hother))
        member.1 (h member List.mem_cons_self) (level + 1) level rest fuel (by omega)
      rw [readValue]
      have hquote : ∀ input, skipBlanks (quote (some member.1) ++ input) =
        '"' :: (member.1.toList.flatMap escape ++ '"' :: input) := quote_append member.1
      rw [quote_append] at hmembers
      simp only [skipBlanks_newline, hquote, List.nil_append]
      -- The quote of the first name is not the brace that would end an empty object.
      split
      · rename_i heq
        exact absurd (List.cons.inj heq).1 (by decide)
      · rw [hmembers]
        rfl

end ReadsBack

/-! ## Documents -/

theorem parse?_pretty {json : Json} (h : json.ReadsBack) : parse? json.pretty = some json := by
  have hblanks := h.skipBlanks_write 0 []
  rw [List.append_nil] at hblanks
  have hread := h.value 0 (2 * (write 0 json).length + 1) [] (by omega)
  rw [List.append_nil] at hread
  simp only [parse?, pretty, String.toList_ofList, hblanks, hread]
  rfl

end Json

end ProjectCompiler
