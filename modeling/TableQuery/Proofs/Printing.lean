import TableQuery.CommandLine
import TableQuery.Proofs.DirectMaps
import TableQuery.Proofs.DirectRecords
import TableQuery.Proofs.NormalForm

/-!
# What a run prints

A run reads its input directly, while a text that is compiled is first read as a
value. Both agree on texts in which everything is written once: conditions that
are compiled from the text are printed then, and no others ever. What is printed
beyond that ignores members that are not readable as values.
-/

namespace TableQuery

open Json

namespace Conditions

/-! ## Fields -/

/-- What has to be plain in the field of a name. Entries of edits have to be
readable even where others replace them, and choices have one name. -/
def Plain : String → Nat → Draft → Prop
  | "update" | "remove" => EditEntry.decoder.option.ReadsMembers
  | "operation" | "returnValues" => Decoder.SingleMember
  | _ => Anything

theorem agrees :
    ∀ field ∈ record.fields, field.Agrees (Plain field.name) := by
  intro field declared
  simp only [record, List.mem_cons, List.not_mem_nil, or_false] at declared
  have edits := ((EditEntry.agrees.option fun _ => trivial).fieldMap
    fieldMapExpectation).option Decoder.readsMembers_null
  have criteria := (Decoder.Agrees.json.map Criterion.ofDocument).fieldMap_of_total
    (fun value => ⟨Criterion.ofDocument value, rfl⟩) fieldMapExpectation
  have key := Decoder.Agrees.json.fieldMap_of_total (fun value => ⟨value, rfl⟩)
    "a map"
  rcases declared with rfl | rfl | rfl | rfl | rfl | rfl | rfl | rfl
  · exact (Decoder.Agrees.string.option fun _ => trivial).field _ _ _
  · exact (criteria.option fun _ => trivial).field _ _ _
  · exact edits.field _ _ _
  · exact edits.field _ _ _
  · exact (Decoder.Agrees.string.list.option fun _ => trivial).field _ _ _
  · exact ((Decoder.Agrees.choice _).option fun _ => trivial).field _ _ _
  · exact ((Decoder.Agrees.choice _).option fun _ => trivial).field _ _ _
  · exact (key.option fun _ => trivial).field _ _ _

/-! ## Texts -/

/-- Reading the text as a value merges nothing that counts: no field is written
twice, an operation and an option have one name, and all entries of edits can
be read, also those that others replace. -/
def WrittenOnce (text : String) : Prop :=
  record.WrittenOnce Plain depthLimit (Document.ofText text).root

/-- The members that are no fields are readable as values. -/
def IgnoredReadable (text : String) : Prop :=
  record.IgnoredReadable depthLimit (Document.ofText text).root

theorem parse_eq_ok_iff {text : String} {value : Json} :
    Json.parse text = .ok value ↔
      (Document.ofText text).root.toJson depthLimit = .ok value ∧
        (Document.ofText text).finish = .ok () := by
  constructor
  · intro parsed
    obtain ⟨found, written, rest⟩ := bind_eq_ok_iff.1 parsed
    obtain ⟨finished, same⟩ := check_bind_eq_ok_iff.1 rest
    cases same
    exact ⟨written, finished⟩
  · rintro ⟨written, finished⟩
    refine bind_eq_ok_iff.2 ⟨value, written, ?_⟩
    rw [finished]
    rfl

/-- A text that is a value is read directly as that value if everything in it is
written once. -/
theorem ofText_iff_of_parse
    {text : String}
    {value : Json}
    (parsed : Json.parse text = .ok value)
    (conditions : Conditions) :
    decoder.ofText text = .ok conditions ↔
      decoder.ofJson value = .ok conditions ∧ WrittenOnce text := by
  obtain ⟨written, finished⟩ := parse_eq_ok_iff.1 parsed
  have skipped := Document.isSkippable_ofText text _ _ written
  rw [Decoder.ofText_eq_ok_iff, and_iff_left finished]
  exact record.ofDraft_eq_ok_iff rfl defaulted agrees written skipped conditions

/-- A text that is read directly is a value if what is ignored in it can be
read. -/
theorem exists_parse_iff
    {text : String}
    {conditions : Conditions}
    (read : decoder.ofText text = .ok conditions) :
    (∃ value, Json.parse text = .ok value) ↔ IgnoredReadable text := by
  obtain ⟨direct, finished⟩ := Decoder.ofText_eq_ok_iff.1 read
  have fields : record.ofDraft depthLimit (Document.ofText text).root =
    .ok conditions := direct
  rw [IgnoredReadable, ← record.exists_toJson_iff defaulted agrees fields]
  simp only [parse_eq_ok_iff, and_iff_left finished]

end Conditions

/-! ## Compiling and printing -/

/-- A text is compiled if it is a value that is compiled. -/
theorem compileText_eq_ok_iff
    {text : String}
    {config : Config}
    {expression : Expression} :
    compileText text config = .ok expression ↔
      Text.isBlankText text = false ∧ ∃ value conditions,
        Json.parse text = .ok value ∧
        Conditions.decoder.ofJson value = .ok conditions ∧
        compile conditions config = .ok expression := by
  rw [compileText, Conditions.ofText]
  cases blank : Text.isBlankText text with
  | true => simp
  | false =>
      cases parsed : Json.parse text with
      | error defect => simp
      | ok value =>
          simp [bind_eq_ok_iff, Conditions.ofJson_eq_ok_iff]

namespace CommandLine

/-- The text that a run reads. -/
def inputText
    (path : Option String)
    (readFile : String → Except FileError String)
    (input : String) : Except Problem String :=
  match path with
  | some path => fileText path (readFile path)
  | none => .ok input

/-- What is printed is the written form of an expression that is compiled from
conditions in the text. -/
theorem output_eq_ok_iff
    {text printed : String}
    {config : Config} :
    output false config text = .ok printed ↔
      Text.isBlankText text = false ∧ ∃ conditions expression,
        Conditions.decoder.ofText text = .ok conditions ∧
        compile conditions config = .ok expression ∧
        printed = expression.toJson.pretty ++ "\n" := by
  rw [output, compiled, readConditions]
  cases blank : Text.isBlankText text with
  | true => simp
  | false =>
      simp only [Bool.false_eq_true, if_false, bind_eq_ok_iff,
        mapError_eq_ok_iff, true_and, Except.ok.injEq]
      constructor
      · rintro ⟨_, ⟨conditions, read, expression, compiled, rfl⟩, rfl⟩
        exact ⟨conditions, expression, read, compiled, rfl⟩
      · rintro ⟨conditions, expression, read, compiled, rfl⟩
        exact ⟨_, ⟨conditions, read, expression, compiled, rfl⟩, rfl⟩

/-- Whatever counts as a log filter, a text that is compiled is printed if
everything in it is written once, and then as what it is compiled to. A text that
is printed is compiled if what is ignored in it can be read. -/
theorem run_of_compileText
    {parseFilter : String → Except String Unit}
    {lookup : String → Option String}
    {arguments : List String}
    {path : Option String}
    {readFile : String → Except FileError String}
    {input text : String}
    (prepared : prepare parseFilter lookup arguments = .ok ⟨false, path⟩)
    (given : inputText path readFile input = .ok text) :
    (∀ expression, compileText text (.ofLookup lookup) = .ok expression →
      ∀ printed,
        runWith parseFilter lookup arguments readFile input = .ok printed ↔
          Conditions.WrittenOnce text ∧
            printed = expression.toJson.pretty ++ "\n") ∧
    ∀ printed,
      runWith parseFilter lookup arguments readFile input = .ok printed →
        ((∃ expression, compileText text (.ofLookup lookup) =
            .ok expression) ↔
          Conditions.IgnoredReadable text) := by
  have ran : runWith parseFilter lookup arguments readFile input =
      output false (.ofLookup lookup) text := by
    rw [runWith, prepared, ok_bind]
    cases path with
    | none =>
        cases given
        rfl
    | some path =>
        have read : fileText path (readFile path) = .ok text := given
        simp only [read, ok_bind]
  rw [ran]
  constructor
  · intro expression compiled printed
    obtain ⟨filled, value, conditions, parsed, read, found⟩ :=
      compileText_eq_ok_iff.1 compiled
    rw [output_eq_ok_iff]
    constructor
    · rintro ⟨_, other, result, direct, compiled, rfl⟩
      obtain ⟨again, once⟩ :=
        (Conditions.ofText_iff_of_parse parsed other).1 direct
      cases read.symm.trans again
      cases found.symm.trans compiled
      exact ⟨once, rfl⟩
    · rintro ⟨once, rfl⟩
      exact ⟨filled, conditions, expression,
        (Conditions.ofText_iff_of_parse parsed conditions).2 ⟨read, once⟩,
        found, rfl⟩
  · intro printed printedText
    obtain ⟨filled, conditions, expression, direct, compiled, _⟩ :=
      output_eq_ok_iff.1 printedText
    rw [← Conditions.exists_parse_iff direct]
    constructor
    · rintro ⟨other, compiled⟩
      obtain ⟨_, value, _, parsed, _⟩ := compileText_eq_ok_iff.1 compiled
      exact ⟨value, parsed⟩
    · rintro ⟨value, parsed⟩
      obtain ⟨read, _⟩ :=
        (Conditions.ofText_iff_of_parse parsed conditions).1 direct
      exact ⟨expression, compileText_eq_ok_iff.2
        ⟨filled, value, conditions, parsed, read, compiled⟩⟩

/-- An environment without any variable. -/
def noVariables : String → Option String := fun _ => none

/-- A directory without any file. -/
def noFiles : String → Except FileError String := fun _ => .error .notFound

/-- A text in which one criterion replaces another, the operation is an object
and one member is no field. -/
def replacedCriterion : String :=
  "\x7b\"operation\":\x7b\"scan\":null\x7d,\"note\":[1,\x7b\x7d],"
    ++ "\"where\":\x7b\"a\":1,\"a\":\"\\u00e9\"\x7d,\"tableName\":\"t\"\x7d"

theorem run_of_compileText_replacedCriterion :
    prepare parsePlainFilter noVariables [] = .ok ⟨false, none⟩ ∧
      inputText none noFiles replacedCriterion = .ok replacedCriterion ∧
      ∃ expression,
        compileText replacedCriterion (.ofLookup noVariables) =
          .ok expression ∧
        run noVariables [] noFiles replacedCriterion =
          .ok (expression.toJson.pretty ++ "\n") ∧
        Conditions.WrittenOnce replacedCriterion ∧
        Conditions.IgnoredReadable replacedCriterion := by
  have prepared :
      prepare parsePlainFilter noVariables [] = .ok ⟨false, none⟩ := by
    decide +kernel
  have compiles : ∃ expression, compileText replacedCriterion
      (.ofLookup noVariables) = .ok expression := by
    rw [exists_ok_iff]
    decide +kernel
  have prints : ∃ printed,
      run noVariables [] noFiles replacedCriterion = .ok printed := by
    rw [exists_ok_iff]
    decide +kernel
  obtain ⟨expression, compiled⟩ := compiles
  obtain ⟨printed, ran⟩ := prints
  obtain ⟨printedIff, compiledIff⟩ := run_of_compileText prepared
    (rfl : inputText none noFiles replacedCriterion = .ok replacedCriterion)
  obtain ⟨once, rfl⟩ := (printedIff expression compiled printed).1 ran
  exact ⟨prepared, rfl, expression, compiled, ran, once,
    (compiledIff _ ran).1 ⟨expression, compiled⟩⟩

/-- A text that names the table twice. -/
def tableTwice : String :=
  "\x7b\"tableName\":\"a\",\"tableName\":\"t\",\"where\":\x7b\x7d,"
    ++ "\"operation\":\"scan\"\x7d"

/-- A text of which the member that is no field is too large a number. -/
def unreadNumber : String :=
  "\x7b\"tableName\":\"t\",\"limit\":1e400,\"where\":\x7b\x7d,"
    ++ "\"operation\":\"scan\"\x7d"

/-- The text with two tables is compiled but not printed, and the text with too
large a number is printed but not compiled. -/
theorem run_differs_from_compileText :
    (∃ expression, compileText tableTwice (.ofLookup noVariables) =
        .ok expression) ∧
      (¬ ∃ printed, run noVariables [] noFiles tableTwice = .ok printed) ∧
      (∃ printed, run noVariables [] noFiles unreadNumber = .ok printed) ∧
      ¬ ∃ expression, compileText unreadNumber (.ofLookup noVariables) =
        .ok expression := by
  simp only [exists_ok_iff]
  decide +kernel

end CommandLine

end TableQuery
