import SqlPlan.Dialect.Identifier
import SqlPlan.Proofs.Reading.Template

/-!
# Reading identifiers back

A name that is written in quotes is read up to the first quote that is not written
twice, and what was read is the name, whatever follows.  A name that is written bare
is a plain word, which no quote begins, and no reserved word in another case.  So a
name can be told from what is written for it.
-/

namespace SqlPlan

namespace Text

/-- Reads on behind an opening quote, up to the first quote that is not written twice: what is
enclosed, and what follows. -/
def readEnclosed (quote : Char) : List Char → Option (List Char × List Char)
  | [] => none
  | [last] => if last = quote then some ([], []) else none
  | char :: next :: rest =>
      if char ≠ quote then
        (readEnclosed quote (next :: rest)).map fun read => (char :: read.1, read.2)
      else if next = quote then
        (readEnclosed quote rest).map fun read => (quote :: read.1, read.2)
      else
        some ([], next :: rest)

/-- Reads a quoted identifier at the beginning of a text. -/
def readQuoted (quote : Char) : List Char → Option (List Char × List Char)
  | [] => none
  | char :: rest => if char = quote then readEnclosed quote rest else none

section Quoted

variable {quote : Char} {chars enclosed rest : List Char}

theorem readEnclosed_of_ne {char : Char} (different : char ≠ quote) (rest : List Char) :
    readEnclosed quote (char :: rest) =
      (readEnclosed quote rest).map fun read => (char :: read.1, read.2) := by
  cases rest with
  | nil => simp [readEnclosed, different]
  | cons next rest => rw [readEnclosed, if_pos different]

theorem readEnclosed_doubled (enclosed : List Char) (ends : rest.head? ≠ some quote) :
    readEnclosed quote (doubled quote enclosed ++ quote :: rest) = some (enclosed, rest) := by
  induction enclosed with
  | nil =>
      cases rest with
      | nil => simp [doubled, readEnclosed]
      | cons next rest =>
          have different : next ≠ quote := by simpa using ends
          simp [doubled, readEnclosed, different]
  | cons char enclosed induction =>
      rw [doubled]
      split
      · rename_i isQuote
        simp [readEnclosed, induction, isQuote]
      · rename_i different
        rw [List.cons_append, readEnclosed_of_ne different, induction]
        rfl

/-- What is read stood there with its quotes written twice, and no quote follows it. -/
theorem eq_doubled_of_readEnclosed (read : readEnclosed quote chars = some (enclosed, rest)) :
    chars = doubled quote enclosed ++ quote :: rest ∧ rest.head? ≠ some quote := by
  fun_induction readEnclosed quote chars generalizing enclosed rest with
  | case1 => cases read
  | case2 =>
      cases read
      simp [doubled]
  | case3 => cases read
  | case4 char next rest different induction =>
      obtain ⟨⟨inner, after⟩, innerRead, equal⟩ := Option.map_eq_some_iff.mp read
      cases equal
      obtain ⟨spelled, ends⟩ := induction innerRead
      exact ⟨by simp [doubled, different, spelled], ends⟩
  | case5 char rest isQuote induction =>
      obtain ⟨⟨inner, after⟩, innerRead, equal⟩ := Option.map_eq_some_iff.mp read
      cases equal
      obtain ⟨spelled, ends⟩ := induction innerRead
      exact ⟨by simp [doubled, not_not.mp isQuote, spelled], ends⟩
  | case6 char next rest isQuote different =>
      cases read
      exact ⟨by simp [doubled, not_not.mp isQuote], by simpa using different⟩

/-- A quoted text is read as itself before any text that does not begin with the quote. -/
theorem readQuoted_quoted_iff {text : String} :
    readQuoted quote ((quoted quote text).toList ++ rest) = some (text.toList, rest) ↔
      rest.head? ≠ some quote := by
  have chars : (quoted quote text).toList ++ rest =
      quote :: (doubled quote text.toList ++ quote :: rest) := by
    simp [quoted, quotedChars]
  rw [chars, readQuoted, if_pos rfl]
  constructor
  · intro read
    exact (eq_doubled_of_readEnclosed read).2
  · exact readEnclosed_doubled text.toList

theorem quoted_injective (quote : Char) : Function.Injective (quoted quote) := by
  intro first second equal
  have firstRead : readQuoted quote ((quoted quote first).toList ++ []) = some (first.toList, []) :=
    readQuoted_quoted_iff.mpr (by simp)
  rw [equal, readQuoted_quoted_iff.mpr (by simp)] at firstRead
  exact (String.toList_injective (congrArg Prod.fst (Option.some.inj firstRead))).symm

end Quoted

/-- Upper case does not look at the case of ASCII letters. -/
theorem upperChar_toLower (char : Char) : upperChar char.toLower = upperChar char := by
  by_cases upper : char.val ≥ 'A'.val ∧ char.val ≤ 'Z'.val
  · have letters : ∀ code < 91, 65 ≤ code →
        upperChar (Char.ofNat code).toLower = upperChar (Char.ofNat code) := by decide
    have least : 65 ≤ char.toNat := upper.1
    have greatest : char.toNat ≤ 90 := upper.2
    have letter := letters char.toNat (by omega) least
    rwa [Char.ofNat_toNat] at letter
  · have unchanged : char.toLower = char := dif_neg upper
    rw [unchanged]

theorem upper_toLower (text : String) : upper text.toLower = upper text := by
  have lower : text.toLower = text.map Char.toLower := rfl
  rw [upper, upper, lower, String.toList_map, List.flatMap_map]
  simp only [upperChar_toLower]

end Text

theorem Catalog.isFilled_template : ∀ part ∈ functionSections, ∀ pair ∈ part.2,
    ∀ entry ∈ pair.2, (!Text.isBlank entry.template) = true := by
  apply forall_entries
  decide +kernel

namespace Dialect

/-! ## Accepted configurations -/

namespace Config

variable {config : Config} {quote : Char}

theorem exists_resolve {dialect : Dialect} (defined : config.define = .ok dialect) :
    ∃ quote, dialect = config.resolve quote := by
  unfold define at defined
  split at defined
  · cases defined
  · split at defined
    · cases defined
    · rename_i quote _
      split at defined
      · cases defined
      · exact ⟨quote, (Except.ok.inj defined).symm⟩

theorem define_eq_ok (named : isName config.name = true)
    (single : Text.singleUnit? config.quote = some quote)
    (filled : config.functions.Holds fun entry => (!Text.isBlank entry.template) = true) :
    config.define = .ok (config.resolve quote) := by
  unfold define
  rw [if_neg (by simp [named])]
  simp only [single]
  split
  · rename_i found
    have blank := List.find?_some found
    have template := filled _ (List.mem_of_find?_eq_some found)
    simp_all
  · rfl

end Config

/-- The known dialects are defined by configurations, and their quotes begin no plain word. -/
theorem defined_of_known {dialect : Dialect} (known : dialect ∈ Registry.builtin.dialects) :
    (∃ config : Config, config.define = .ok dialect) ∧
      Text.isPlainPart dialect.quote = false := by
  have filled := Catalog.holds_functions Catalog.isFilled_template
  simp only [Registry.builtin, List.mem_cons, List.not_mem_nil, or_false] at known
  rcases known with rfl | rfl | rfl | rfl
  · exact ⟨⟨_, Config.define_eq_ok (by decide) (by decide) (filled "postgres")⟩, by decide⟩
  · exact ⟨⟨_, Config.define_eq_ok (by decide) (by decide) (filled "sqlite")⟩, by decide⟩
  · exact ⟨⟨_, Config.define_eq_ok (by decide) (by decide) (filled "mysql")⟩, by decide⟩
  · exact ⟨⟨_, Config.define_eq_ok (by decide) (by decide) (filled "ansi")⟩, by decide⟩

/-! ## Bare names -/

/-- No configured word is a name that is not reserved, whatever the case of its letters.  Case is
ignored by the upper case of both, as a dialect compares them, and so also by the case of ASCII
letters, as a database folds the letters of a bare name.  The full lower case is another reading:
it makes the Kelvin sign a `k`, which upper case leaves as it is. -/
theorem ne_of_not_isReserved {config : Config} {quote : Char} {name : String}
    (free : (config.resolve quote).isReserved name = false) {word : String}
    (configured : word ∈ config.reservedWords) :
    Text.upper word ≠ Text.upper name ∧ word.toLower ≠ name.toLower := by
  have different : Text.upper word ≠ Text.upper name := by
    intro equal
    have listed : Text.upper name ∈ Config.normalWords config.reservedWords := by
      rw [Config.normalWords, List.mem_eraseDups, ← equal]
      exact List.mem_map_of_mem configured
    have reserved : (config.resolve quote).isReserved name = true :=
      List.contains_iff_mem.mpr listed
    rw [free] at reserved
    cases reserved
  refine ⟨different, fun equal => different ?_⟩
  rw [← Text.upper_toLower word, equal, Text.upper_toLower]

section Identifier

variable {dialect : Dialect} {name : String}

theorem identifier_of_bare (bare : dialect.needsQuotes name = false) :
    dialect.identifier name = name ∧ Text.isPlainIdentifier name = true ∧
      dialect.isReserved name = false := by
  refine ⟨by rw [identifier, bare]; rfl, ?_⟩
  simp only [needsQuotes, Bool.or_eq_false_iff, Bool.not_eq_false'] at bare
  exact ⟨bare.1.2, bare.2⟩

theorem identifier_of_quoted (quoted : dialect.needsQuotes name = true) :
    dialect.identifier name = Text.quoted dialect.quote name := by
  rw [identifier, if_pos quoted]

theorem head?_quoted (quote : Char) (text : String) :
    (Text.quoted quote text).toList.head? = some quote := by
  simp [Text.quoted, Text.quotedChars]

theorem head?_ne_of_isPlainIdentifier (plain : Text.isPlainIdentifier name = true) {quote : Char}
    (apart : Text.isPlainPart quote = false) : name.toList.head? ≠ some quote := by
  unfold Text.isPlainIdentifier at plain
  split at plain
  · cases plain
  · rename_i first rest chars
    rw [chars]
    intro equal
    cases equal
    have start : Text.isPlainStart quote = true := (Bool.and_eq_true_iff.mp plain).1
    simp only [Text.isPlainStart, Text.isPlainPart] at start apart
    simp_all

/-- Different names are written differently. -/
theorem identifier_injective (apart : Text.isPlainPart dialect.quote = false) :
    Function.Injective dialect.identifier := by
  -- A quoted text begins with the quote and a plain word does not.
  have mixed (bareName quotedName : String) (bare : dialect.needsQuotes bareName = false)
      (quoted : dialect.needsQuotes quotedName = true) :
      dialect.identifier bareName ≠ dialect.identifier quotedName := by
    intro equal
    obtain ⟨written, plain, _⟩ := identifier_of_bare bare
    rw [written, identifier_of_quoted quoted] at equal
    apply head?_ne_of_isPlainIdentifier plain apart
    rw [equal, head?_quoted]
  intro first second equal
  cases firstForm : dialect.needsQuotes first with
  | false =>
      cases secondForm : dialect.needsQuotes second with
      | false =>
          rwa [(identifier_of_bare firstForm).1, (identifier_of_bare secondForm).1] at equal
      | true => exact absurd equal (mixed first second firstForm secondForm)
  | true =>
      cases secondForm : dialect.needsQuotes second with
      | false => exact absurd equal.symm (mixed second first secondForm firstForm)
      | true =>
          rw [identifier_of_quoted firstForm, identifier_of_quoted secondForm] at equal
          exact Text.quoted_injective _ equal

end Identifier

/-- Names survive being written.  In every dialect whose quote is no part of a plain word, a name
is written as itself, if it is a plain word that is no reserved word in any case, by the full upper
case and by ASCII letters alone, or so that a quoted identifier is read there which is the name,
whatever follows that is not the quote. -/
theorem identifier_readable :
    (∀ dialect ∈ Registry.builtin.dialects, (∃ config : Config, config.define = .ok dialect) ∧
        Text.isPlainPart dialect.quote = false) ∧
      ∀ (config : Config) (dialect : Dialect), config.define = .ok dialect →
        Text.isPlainPart dialect.quote = false →
        (∀ name,
          (dialect.identifier name = name ∧ Text.isPlainIdentifier name = true ∧
            ∀ word ∈ config.reservedWords,
              Text.upper word ≠ Text.upper name ∧ word.toLower ≠ name.toLower) ∨
          ∀ rest, Text.readQuoted dialect.quote ((dialect.identifier name).toList ++ rest) =
            some (name.toList, rest) ↔ rest.head? ≠ some dialect.quote) ∧
        Function.Injective dialect.identifier := by
  refine ⟨fun dialect known => defined_of_known known, ?_⟩
  intro config dialect defined apart
  obtain ⟨quote, rfl⟩ := Config.exists_resolve defined
  refine ⟨fun name => ?_, identifier_injective apart⟩
  cases form : (config.resolve quote).needsQuotes name with
  | false =>
      obtain ⟨written, plain, free⟩ := identifier_of_bare form
      exact .inl ⟨written, plain, fun word configured => ne_of_not_isReserved free configured⟩
  | true =>
      rw [identifier_of_quoted form]
      exact .inr fun rest => Text.readQuoted_quoted_iff

/-- A dialect that encloses names between bars. -/
def barred : Config where
  name := "barred"
  reservedWords := ["Order"]
  functions := .empty
  truncatesDivision := false
  supportsFullJoin := false
  quote := "|"

theorem identifier_readable_barred :
    barred.define = .ok (barred.resolve '|') ∧ Text.isPlainPart '|' = false ∧
      Text.readQuoted '|' (((barred.resolve '|').identifier "order").toList ++ ['.']) =
        some ("order".toList, ['.']) ∧
      (barred.resolve '|').identifier "a|" ≠ (barred.resolve '|').identifier "a" := by
  have defined : barred.define = .ok (barred.resolve '|') :=
    Config.define_eq_ok (by decide) (by decide) (.empty _)
  have apart : Text.isPlainPart '|' = false := by decide
  obtain ⟨forms, injective⟩ := identifier_readable.2 barred (barred.resolve '|') defined apart
  refine ⟨defined, apart, ?_, injective.ne (by decide)⟩
  rcases forms "order" with ⟨_, _, free⟩ | quoted
  · have reserved : Text.upper "Order" = Text.upper "order" := by decide +kernel
    exact absurd reserved (free "Order" List.mem_cons_self).1
  · exact (quoted ['.']).mpr (by decide)

end Dialect

end SqlPlan
