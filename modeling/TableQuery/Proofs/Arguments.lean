import Mathlib.Data.List.Induction
import TableQuery.CommandLine
import TableQuery.Proofs.Outcome

/-!
# Input paths among the arguments

The arguments are taken in from left to right. A path is refused while an earlier
one stands, so arguments are refused if two paths follow one another. The
argument that asks for the standard input takes back the path before it, though,
and nothing remembers that there was one: paths on both of its sides are
accepted, and the first of them is dropped.
-/

namespace TableQuery
namespace CommandLine

/-- An argument that starts like a flag. -/
def IsFlag (argument : String) : Prop := ['-', '-'] <+: argument.toList

/-- A flag that the program does not have. -/
def IsUnknownFlag (argument : String) : Prop :=
  IsFlag argument ∧ argument ≠ "--wire"

/-- An argument that names an input file: neither a flag nor the sign of the
standard input. -/
def IsPath (argument : String) : Prop :=
  ¬ IsFlag argument ∧ argument ≠ "-"

instance : DecidablePred IsFlag := fun argument =>
  inferInstanceAs (Decidable (['-', '-'] <+: argument.toList))

instance : DecidablePred IsUnknownFlag := fun argument =>
  inferInstanceAs (Decidable (IsFlag argument ∧ argument ≠ "--wire"))

instance : DecidablePred IsPath := fun argument =>
  inferInstanceAs (Decidable (¬ IsFlag argument ∧ argument ≠ "-"))

/-- The path that the arguments leave standing: the standard input is not asked
for behind it. -/
def LeavesPath (arguments : List String) (path : String) : Prop :=
  ∃ before after, arguments = before ++ path :: after ∧ IsPath path ∧
    "-" ∉ after

/-- Two paths are given, and the standard input is not asked for between them. -/
def GivesTwoPaths (arguments : List String) : Prop :=
  ∃ before path between other after,
    arguments = before ++ path :: (between ++ other :: after) ∧
      IsPath path ∧ IsPath other ∧ "-" ∉ between

/-- What options say about the arguments that they were taken from. -/
structure Reads (arguments : List String) (options : Options) : Prop where
  /-- There is no flag that the program does not have. -/
  known : ∀ argument ∈ arguments, ¬ IsUnknownFlag argument
  /-- No path follows another one. -/
  apart : ¬ GivesTwoPaths arguments
  /-- The request is printed if a flag asks for it. -/
  wire : options.wire = true ↔ "--wire" ∈ arguments
  /-- The file to read is the path that is left standing. -/
  path : ∀ path, options.path = some path ↔ LeavesPath arguments path

/-- Why arguments are refused: for the first one that is a flag which the program
does not have, or a path behind one that is left standing. -/
inductive Refuses (arguments : List String) : Problem → Prop
  | unknownFlag {before after : List String} {options : Options} {flag : String}
      (split : arguments = before ++ flag :: after)
      (accepted : Reads before options)
      (unknown : IsUnknownFlag flag) :
      Refuses arguments (.plain ("unknown flag: " ++ flag))
  | secondPath {before after : List String} {options : Options}
      {first second : String}
      (split : arguments = before ++ second :: after)
      (accepted : Reads before options)
      (standing : LeavesPath before first)
      (isPath : IsPath second) :
      Refuses arguments (.plain "more than one input path given")

/-! ## One argument -/

/-- An argument is of one of four kinds. -/
theorem argument_cases (argument : String) :
    argument = "--wire" ∨ argument = "-" ∨ IsUnknownFlag argument ∨
      IsPath argument := by
  by_cases isFlag : IsFlag argument
  · by_cases isWire : argument = "--wire"
    · exact .inl isWire
    · exact .inr (.inr (.inl ⟨isFlag, isWire⟩))
  · by_cases isInput : argument = "-"
    · exact .inr (.inl isInput)
    · exact .inr (.inr (.inr ⟨isFlag, isInput⟩))

theorem take_two_eq_iff (argument : String) :
    argument.toList.take 2 = ['-', '-'] ↔ IsFlag argument := by
  rw [IsFlag, List.prefix_iff_eq_take]
  exact eq_comm

theorem IsUnknownFlag.not_isPath
    {flag : String}
    (unknown : IsUnknownFlag flag) : ¬ IsPath flag :=
  fun isPath => isPath.1 unknown.1

theorem IsPath.ne_wire {path : String} (isPath : IsPath path) :
    path ≠ "--wire" := by
  rintro rfl
  exact isPath.1 (by decide)

namespace Options

theorem take_wire (options : Options) :
    options.take "--wire" = .ok { options with wire := true } := rfl

theorem take_input (options : Options) :
    options.take "-" = .ok { options with path := none } := rfl

theorem take_unknownFlag
    (options : Options)
    {flag : String}
    (unknown : IsUnknownFlag flag) :
    options.take flag = .error (.plain ("unknown flag: " ++ flag)) := by
  have notInput : flag ≠ "-" := by
    rintro rfl
    exact absurd unknown.1 (by decide)
  rw [take, if_neg unknown.2, if_neg notInput,
    if_pos ((take_two_eq_iff flag).2 unknown.1)]

theorem take_path
    (options : Options)
    {path : String}
    (isPath : IsPath path) :
    options.take path =
      if options.path.isSome then
        .error (.plain "more than one input path given")
      else .ok { options with path := some path } := by
  rw [take, if_neg isPath.ne_wire, if_neg isPath.2,
    if_neg (mt (take_two_eq_iff path).1 isPath.1)]

theorem ofArguments_concat (arguments : List String) (argument : String) :
    ofArguments (arguments ++ [argument]) =
      ofArguments arguments >>= fun options => options.take argument := by
  rw [ofArguments, List.foldlM_append]
  simp [ofArguments]

end Options

/-! ## One argument more -/

theorem leavesPath_concat_iff
    (arguments : List String)
    (argument path : String) :
    LeavesPath (arguments ++ [argument]) path ↔
      IsPath path ∧ argument = path ∨
        argument ≠ "-" ∧ LeavesPath arguments path := by
  constructor
  · rintro ⟨before, after, split, isPath, notAsked⟩
    cases after using List.reverseRecOn with
    | nil =>
        obtain ⟨_, last⟩ := List.append_inj' split rfl
        exact .inl ⟨isPath, List.singleton_inj.1 last⟩
    | append_singleton after last =>
        rw [← List.cons_append, ← List.append_assoc] at split
        obtain ⟨rfl, same⟩ := List.append_inj' split rfl
        obtain rfl := List.singleton_inj.1 same
        simp only [List.mem_append, List.mem_singleton, not_or] at notAsked
        exact .inr ⟨Ne.symm notAsked.2,
          before, after, rfl, isPath, notAsked.1⟩
  · rintro (⟨isPath, rfl⟩ | ⟨notInput, before, after, rfl, isPath, notAsked⟩)
    · exact ⟨arguments, [], rfl, isPath, List.not_mem_nil⟩
    · refine ⟨before, after ++ [argument], by simp, isPath, ?_⟩
      simp [notAsked, Ne.symm notInput]

/-- A path behind one that is left standing makes two. -/
theorem LeavesPath.givesTwoPaths
    {arguments : List String}
    {first second : String}
    (standing : LeavesPath arguments first)
    (isPath : IsPath second)
    (after : List String) :
    GivesTwoPaths (arguments ++ second :: after) := by
  obtain ⟨before, between, rfl, firstIsPath, notAsked⟩ := standing
  exact ⟨before, first, between, second, after, by simp, firstIsPath, isPath,
    notAsked⟩

theorem givesTwoPaths_concat_iff
    (arguments : List String)
    (argument : String) :
    GivesTwoPaths (arguments ++ [argument]) ↔
      GivesTwoPaths arguments ∨
        IsPath argument ∧ ∃ path, LeavesPath arguments path := by
  constructor
  · rintro ⟨before, path, between, other, after, split, isPath, otherIsPath,
      notAsked⟩
    cases after using List.reverseRecOn with
    | nil =>
        rw [← List.cons_append, ← List.append_assoc] at split
        obtain ⟨rfl, last⟩ := List.append_inj' split rfl
        obtain rfl := List.singleton_inj.1 last
        exact .inr ⟨otherIsPath, path, before, between, rfl, isPath, notAsked⟩
    | append_singleton after last =>
        have regrouped : arguments ++ [argument] =
            (before ++ path :: (between ++ other :: after)) ++ [last] := by
          simp [split]
        obtain ⟨rfl, _⟩ := List.append_inj' regrouped rfl
        exact .inl ⟨before, path, between, other, after, rfl, isPath,
          otherIsPath, notAsked⟩
  · rintro (⟨before, path, between, other, after, rfl, twice⟩ |
      ⟨isPath, path, standing⟩)
    · exact ⟨before, path, between, other, after ++ [argument], by simp, twice⟩
    · exact standing.givesTwoPaths isPath []

theorem not_leavesPath_nil (path : String) : ¬ LeavesPath [] path := by
  rintro ⟨before, after, split, _⟩
  cases before <;> cases split

theorem not_givesTwoPaths_nil : ¬ GivesTwoPaths [] := by
  rintro ⟨before, path, between, other, after, split, _⟩
  cases before <;> cases split

/-! ## What is read -/

namespace Reads

theorem nil : Reads [] .default where
  known := by simp
  apart := not_givesTwoPaths_nil
  wire := by simp [Options.default]
  path := fun path => iff_of_false nofun (not_leavesPath_nil path)

/-- The arguments say what the options are. -/
theorem unique
    {arguments : List String}
    {left right : Options}
    (readsLeft : Reads arguments left)
    (readsRight : Reads arguments right) : left = right := by
  have wire : left.wire = right.wire :=
    Bool.eq_iff_iff.2 (readsLeft.wire.trans readsRight.wire.symm)
  have path : left.path = right.path := Option.ext fun path =>
    (readsLeft.path path).trans (readsRight.path path).symm
  cases left
  cases right
  cases wire
  cases path
  rfl

theorem known_concat
    {arguments : List String}
    {argument : String}
    {options : Options}
    (reads : Reads arguments options)
    (notUnknown : ¬ IsUnknownFlag argument) :
    ∀ other ∈ arguments ++ [argument], ¬ IsUnknownFlag other := by
  simp only [List.mem_append, List.mem_singleton]
  rintro other (member | rfl)
  · exact reads.known other member
  · exact notUnknown

theorem apart_concat
    {arguments : List String}
    {argument : String}
    {options : Options}
    (reads : Reads arguments options)
    (notSecond : IsPath argument → options.path = none) :
    ¬ GivesTwoPaths (arguments ++ [argument]) := by
  rw [givesTwoPaths_concat_iff]
  rintro (twice | ⟨isPath, path, standing⟩)
  · exact reads.apart twice
  · rw [← reads.path, notSecond isPath] at standing
    cases standing

theorem concat_wire
    {arguments : List String}
    {options : Options}
    (reads : Reads arguments options) :
    Reads (arguments ++ ["--wire"]) { options with wire := true } where
  known := reads.known_concat (by decide)
  apart := reads.apart_concat fun isPath => absurd isPath (by decide)
  wire := by simp
  path := by
    intro path
    rw [leavesPath_concat_iff, ← reads.path]
    refine ⟨fun same => .inr ⟨by decide, same⟩, ?_⟩
    rintro (⟨isPath, rfl⟩ | ⟨_, same⟩)
    · exact absurd rfl isPath.ne_wire
    · exact same

/-- Asking for the standard input takes back the path. -/
theorem concat_input
    {arguments : List String}
    {options : Options}
    (reads : Reads arguments options) :
    Reads (arguments ++ ["-"]) { options with path := none } where
  known := reads.known_concat (by decide)
  apart := reads.apart_concat fun isPath => absurd isPath (by decide)
  wire := by simp [reads.wire]
  path := by
    intro path
    rw [leavesPath_concat_iff]
    refine iff_of_false nofun ?_
    rintro (⟨isPath, rfl⟩ | ⟨different, _⟩)
    · exact isPath.2 rfl
    · exact different rfl

theorem concat_path
    {arguments : List String}
    {path : String}
    {options : Options}
    (reads : Reads arguments options)
    (isPath : IsPath path)
    (nothing : options.path = none) :
    Reads (arguments ++ [path]) { options with path := some path } where
  known := reads.known_concat fun unknown => unknown.not_isPath isPath
  apart := reads.apart_concat fun _ => nothing
  wire := by simp [reads.wire, isPath.ne_wire.symm]
  path := by
    intro other
    rw [leavesPath_concat_iff, ← reads.path, nothing]
    simp only [Option.some.injEq, reduceCtorEq, and_false, or_false]
    refine ⟨?_, And.right⟩
    rintro rfl
    exact ⟨isPath, rfl⟩

/-- Taking in one argument keeps the options and the arguments together. -/
theorem take
    {arguments : List String}
    {argument : String}
    {earlier options : Options}
    (reads : Reads arguments earlier)
    (taken : earlier.take argument = .ok options) :
    Reads (arguments ++ [argument]) options := by
  rcases argument_cases argument with rfl | rfl | unknown | isPath
  · rw [Options.take_wire] at taken
    cases taken
    exact reads.concat_wire
  · rw [Options.take_input] at taken
    cases taken
    exact reads.concat_input
  · rw [Options.take_unknownFlag _ unknown] at taken
    cases taken
  · rw [Options.take_path _ isPath] at taken
    split at taken
    · cases taken
    · next notStanding =>
        cases taken
        exact reads.concat_path isPath (by simpa using notStanding)

end Reads

theorem reads_of_ofArguments
    {arguments : List String}
    {options : Options}
    (accepted : Options.ofArguments arguments = .ok options) :
    Reads arguments options := by
  induction arguments using List.reverseRecOn generalizing options with
  | nil =>
      cases accepted
      exact .nil
  | append_singleton arguments argument hypothesis =>
      rw [Options.ofArguments_concat, bind_eq_ok_iff] at accepted
      obtain ⟨earlier, accepted, taken⟩ := accepted
      exact (hypothesis accepted).take taken

/-! ## What is refused -/

namespace Refuses

/-- What is refused stays refused, whatever follows. -/
theorem append
    {arguments : List String}
    {problem : Problem}
    (refuses : Refuses arguments problem)
    (more : List String) : Refuses (arguments ++ more) problem := by
  cases refuses with
  | unknownFlag split accepted unknown =>
      exact .unknownFlag (by rw [split, List.append_assoc]; rfl) accepted unknown
  | secondPath split accepted standing isPath =>
      exact .secondPath (by rw [split, List.append_assoc]; rfl) accepted standing
        isPath

theorem unknown_or_twice
    {arguments : List String}
    {problem : Problem}
    (refuses : Refuses arguments problem) :
    (∃ argument ∈ arguments, IsUnknownFlag argument) ∨
      GivesTwoPaths arguments := by
  cases refuses with
  | @unknownFlag before after _ flag split _ unknown =>
      exact .inl ⟨flag, by simp [split], unknown⟩
  | @secondPath before after _ _ second split _ standing isPath =>
      exact .inr (split ▸ standing.givesTwoPaths isPath after)

end Refuses

theorem refuses_of_ofArguments
    {arguments : List String}
    {problem : Problem}
    (refused : Options.ofArguments arguments = .error problem) :
    Refuses arguments problem := by
  induction arguments using List.reverseRecOn with
  | nil => cases refused
  | append_singleton arguments argument hypothesis =>
      rw [Options.ofArguments_concat, bind_eq_error_iff] at refused
      rcases refused with refused | ⟨earlier, accepted, refused⟩
      · exact (hypothesis refused).append [argument]
      · have reads := reads_of_ofArguments accepted
        rcases argument_cases argument with rfl | rfl | unknown | isPath
        · cases refused
        · cases refused
        · rw [Options.take_unknownFlag _ unknown] at refused
          cases refused
          exact .unknownFlag rfl reads unknown
        · rw [Options.take_path _ isPath] at refused
          split at refused
          · next standing =>
              cases refused
              obtain ⟨path, same⟩ := Option.isSome_iff_exists.1 standing
              exact .secondPath rfl reads ((reads.path path).1 same) isPath
          · cases refused

theorem ofArguments_eq_ok_iff (arguments : List String) (options : Options) :
    Options.ofArguments arguments = .ok options ↔ Reads arguments options := by
  refine ⟨reads_of_ofArguments, fun reads => ?_⟩
  cases outcome : Options.ofArguments arguments with
  | ok other => rw [(reads_of_ofArguments outcome).unique reads]
  | error problem =>
      rcases (refuses_of_ofArguments outcome).unknown_or_twice with
        ⟨argument, member, unknown⟩ | twice
      · exact absurd unknown (reads.known argument member)
      · exact absurd twice reads.apart

theorem ofArguments_eq_error_iff (arguments : List String) (problem : Problem) :
    Options.ofArguments arguments = .error problem ↔
      Refuses arguments problem := by
  refine ⟨refuses_of_ofArguments, fun refuses => ?_⟩
  -- What stands in front is accepted, and the argument behind it is refused.
  cases refuses with
  | unknownFlag split accepted unknown =>
      have before := (ofArguments_eq_ok_iff _ _).2 accepted
      rw [Options.ofArguments] at before
      rw [split, Options.ofArguments, List.foldlM_append, before, ok_bind,
        List.foldlM_cons, Options.take_unknownFlag _ unknown, error_bind]
  | secondPath split accepted standing isPath =>
      have before := (ofArguments_eq_ok_iff _ _).2 accepted
      rw [Options.ofArguments] at before
      have isSome := Option.isSome_iff_exists.2
        ⟨_, (accepted.path _).2 standing⟩
      rw [split, Options.ofArguments, List.foldlM_append, before, ok_bind,
        List.foldlM_cons, Options.take_path _ isPath, if_pos isSome, error_bind]

/-- Arguments are refused exactly if there is an unknown flag or a path follows
another one and the standard input is not asked for in between. Whatever is not
refused is read as the path that is left standing, and a refusal is for the first
argument that does not fit. -/
theorem ofArguments_by_paths (arguments : List String) :
    ((∃ problem, Options.ofArguments arguments = .error problem) ↔
      (∃ argument ∈ arguments, IsUnknownFlag argument) ∨
        GivesTwoPaths arguments) ∧
    (∀ options, Options.ofArguments arguments = .ok options ↔
      Reads arguments options) ∧
    ∀ problem, Options.ofArguments arguments = .error problem ↔
      Refuses arguments problem := by
  refine ⟨⟨?_, fun faulty => ?_⟩, ofArguments_eq_ok_iff arguments,
    ofArguments_eq_error_iff arguments⟩
  · rintro ⟨problem, refused⟩
    exact (refuses_of_ofArguments refused).unknown_or_twice
  · cases outcome : Options.ofArguments arguments with
    | error problem => exact ⟨problem, rfl⟩
    | ok options =>
        have reads := reads_of_ofArguments outcome
        rcases faulty with ⟨argument, member, unknown⟩ | twice
        · exact absurd unknown (reads.known argument member)
        · exact absurd twice reads.apart

/-- Of two paths with the sign of the standard input between them the first one is
dropped: the run is that of the second path alone. -/
theorem ofArguments_drops_path :
    IsPath "a.json" ∧ IsPath "b.json" ∧
      Options.ofArguments ["a.json", "-", "b.json"] =
        .ok ⟨false, some "b.json"⟩ ∧
      ∀ lookup readFile input,
        run lookup ["a.json", "-", "b.json"] readFile input =
          run lookup ["b.json"] readFile input :=
  ⟨by decide, by decide, rfl, fun _ _ _ => rfl⟩

end CommandLine
end TableQuery
