import Mathlib
import TinyScript.CommandLine.Options

/-!
# What decides a command line

Arguments are read one by one, and the reading keeps two things: a colour mode and a script.
Both can be told from the arguments read so far, without reading them: the mode is that of the
last colour option (`lastColor`), and the script is the only argument that is no option
(`paths`). An argument that does more than add to these two decides the command line, and
`Decides` is the list of the ways to do so, each with what comes of it. Since nothing behind
such an argument is read, the first one wins.

## Main results

* `parse_append_of_undecided`: the reading of a command line, behind arguments that decide nothing.
* `Decides.parseFrom_eq`: the reading of an argument that decides.
* `parse_eq_of_decisions`: all command lines.
-/

namespace TinyScript.CommandLine

/-! ## Arguments -/

/-- Whether an argument is an option: it starts with two dashes, or is one of the short ones. -/
def isOption (arg : String) : Bool :=
  arg.startsWith "--" || arg == "-h" || arg == "-V"

/-- The mode that a colour option asks for. -/
def colorOf? : String → Option ColorMode
  | "--color=auto" => some .auto
  | "--color=always" => some .always
  | "--color=never" => some .never
  | _ => none

/-- The mode of the last colour option. -/
def lastColor (args : List String) : ColorMode :=
  (args.filterMap colorOf?).getLast?.getD .auto

/-- The arguments that are no options. -/
def paths (args : List String) : List String :=
  args.filter (!isOption ·)

/--
`Decides before arg next result`: behind the arguments `before` and in front of `next`, if there
is one, the argument `arg` decides that the command line means `result`.
-/
inductive Decides (before : List String) : String → Option String → Except UsageError Options → Prop
  | explain (code : String) :
    Decides before "--explain" (some code) (.ok ⟨lastColor before, .explain code⟩)
  | missingCode : Decides before "--explain" none (.error .missingExplainCode)
  | help {arg : String} {next : Option String} (h : arg = "--help" ∨ arg = "-h") :
    Decides before arg next (.ok ⟨lastColor before, .help⟩)
  | version {arg : String} {next : Option String} (h : arg = "--version" ∨ arg = "-V") :
    Decides before arg next (.ok ⟨lastColor before, .version⟩)
  | invalidColor {value : String} {next : Option String} (h : value ∉ ["auto", "always", "never"]) :
    Decides before ("--color=" ++ value) next (.error (.invalidColor value))
  | unknownOption {arg : String} {next : Option String} (h : arg.startsWith "--")
    (hColor : ¬arg.startsWith "--color=") (hOther : arg ∉ ["--explain", "--help", "--version"]) :
    Decides before arg next (.error (.unknownOption arg))
  /-- The second argument that is no option. -/
  | tooManyScripts {arg : String} {next : Option String} (h : isOption arg = false)
    (hSecond : (paths before).length = 1) : Decides before arg next (.error .tooManyScripts)

/-- Whether an argument decides behind the arguments `before`, whatever is next. -/
def Decisive (before : List String) (arg : String) : Prop :=
  ∃ next result, Decides before arg next result

/-- Whether no argument decides at its place. -/
def Undecided (args : List String) : Prop :=
  ∀ before arg rest, args = before ++ arg :: rest → ¬Decisive before arg

/-! ## Classes of arguments -/

theorem after?_eq_some_iff {start text rest : List Char} :
    after? start text = some rest ↔ text = start ++ rest := by
  fun_induction after? start text with
  | case1 => simp [eq_comm]
  | case2 => simp
  | case3 start d text ih => simp [ih]
  | case4 c start d text hne => simp [Ne.symm hne]

theorem startsWith_iff {start text : String} :
    text.startsWith start ↔ ∃ rest, text = start ++ rest := by
  rw [String.startsWith_string_iff, List.IsPrefix]
  constructor
  · rintro ⟨rest, hRest⟩
    refine ⟨String.ofList rest, String.toList_inj.1 ?_⟩
    rw [String.toList_append, String.toList_ofList, hRest]
  · rintro ⟨rest, rfl⟩
    exact ⟨rest.toList, (String.toList_append).symm⟩

theorem isSome_after?_iff {start text : String} :
    (after? start.toList text.toList).isSome ↔ text.startsWith start := by
  rw [Option.isSome_iff_exists, String.startsWith_string_iff]
  exact exists_congr fun rest => after?_eq_some_iff.trans eq_comm

/-- What starts with the name of the colour option starts with two dashes. -/
theorem startsWith_dashes {arg : String} (h : arg.startsWith "--color=") : arg.startsWith "--" := by
  obtain ⟨value, rfl⟩ := startsWith_iff.1 h
  simp

theorem isOption_eq_false_iff {arg : String} :
    isOption arg = false ↔ ¬arg.startsWith "--" ∧ arg ≠ "-h" ∧ arg ≠ "-V" := by
  simp [isOption, and_assoc]

namespace Argument

variable {arg : String}

theorem of_color (value : String) : Argument.of ("--color=" ++ value) = .color value := by
  have hAfter : after? "--color=".toList ("--color=" ++ value).toList = some value.toList := by
    rw [after?_eq_some_iff, String.toList_append]
  simp only [Argument.of, hAfter, String.ofList_toList]

/-- Every other argument is known by what it is, or by its dashes. -/
theorem of_of_not_color (h : ¬arg.startsWith "--color=") :
    Argument.of arg =
      if arg = "--explain" then .explain
      else if arg = "--help" ∨ arg = "-h" then .help
      else if arg = "--version" ∨ arg = "-V" then .version
      else if arg.startsWith "--" then .unknown
      else .script := by
  have hNone : after? "--color=".toList arg.toList = none := by
    rwa [← isSome_after?_iff, Option.not_isSome_iff_eq_none] at h
  simp only [Argument.of, hNone, isSome_after?_iff]

theorem of_explain : Argument.of "--explain" = .explain := by decide

theorem of_help (h : arg = "--help" ∨ arg = "-h") : Argument.of arg = .help := by
  rcases h with rfl | rfl <;> decide

theorem of_version (h : arg = "--version" ∨ arg = "-V") : Argument.of arg = .version := by
  rcases h with rfl | rfl <;> decide

theorem of_unknown (h : arg.startsWith "--") (hColor : ¬arg.startsWith "--color=")
    (hOther : arg ∉ ["--explain", "--help", "--version"]) : Argument.of arg = .unknown := by
  have hHelp : arg ≠ "-h" := by
    rintro rfl
    simp at h
  have hVersion : arg ≠ "-V" := by
    rintro rfl
    simp at h
  simp only [List.mem_cons, List.not_mem_nil, or_false, not_or] at hOther
  simp [of_of_not_color hColor, hOther, hHelp, hVersion, h]

theorem of_script (h : isOption arg = false) : Argument.of arg = .script := by
  obtain ⟨hDashes, hHelp, hVersion⟩ := isOption_eq_false_iff.1 h
  have hColor : ¬arg.startsWith "--color=" := fun hColor => hDashes (startsWith_dashes hColor)
  have hNe : ∀ {option : String}, option.startsWith "--" → arg ≠ option := by
    rintro option hOption rfl
    exact hDashes hOption
  have hExplain : arg ≠ "--explain" := hNe (by simp)
  have hLongHelp : arg ≠ "--help" := hNe (by simp)
  have hLongVersion : arg ≠ "--version" := hNe (by simp)
  simp [of_of_not_color hColor, hHelp, hVersion, hExplain, hLongHelp, hLongVersion, hDashes]

end Argument

/-! ## Colours -/

theorem ofName?_eq_none_iff {value : String} :
    ColorMode.ofName? value = none ↔ value ∉ ["auto", "always", "never"] := by
  unfold ColorMode.ofName?
  split <;> simp_all

theorem colorOf?_color (value : String) :
    colorOf? ("--color=" ++ value) = ColorMode.ofName? value := by
  have hValue (name : String) : "--color=" ++ value = "--color=" ++ name ↔ value = name := by
    simp [← String.toList_inj]
  unfold colorOf?
  split
  · next h => rw [(hValue "auto").1 h]; rfl
  · next h => rw [(hValue "always").1 h]; rfl
  · next h => rw [(hValue "never").1 h]; rfl
  · next h h' h'' =>
      symm
      rw [ofName?_eq_none_iff]
      simp only [List.mem_cons, List.not_mem_nil, or_false]
      rintro (rfl | rfl | rfl)
      · exact h rfl
      · exact h' rfl
      · exact h'' rfl

theorem colorOf?_of_not_startsWith {arg : String} (h : ¬arg.startsWith "--color=") :
    colorOf? arg = none := by
  unfold colorOf?
  split
  · simp at h
  · simp at h
  · simp at h
  · rfl

/-! ## Single arguments -/

variable {before args : List String} {arg : String} {next : Option String}
  {result : Except UsageError Options}

/-- Reading a deciding argument, in the state that the arguments before it lead to. -/
theorem Decides.parseFrom_eq {rest : List String} (h : Decides before arg rest.head? result) :
    Options.parseFrom (lastColor before) (paths before).head? (arg :: rest) = result := by
  generalize hNext : rest.head? = next at h
  cases h with
  | explain code =>
      obtain ⟨rest, rfl⟩ := List.head?_eq_some_iff.1 hNext
      simp [Options.parseFrom, Argument.of_explain]
  | missingCode =>
      rw [List.head?_eq_none_iff.1 hNext]
      simp [Options.parseFrom, Argument.of_explain]
  | help h => simp [Options.parseFrom, Argument.of_help h]
  | version h => simp [Options.parseFrom, Argument.of_version h]
  | invalidColor h =>
      simp [Options.parseFrom, Argument.of_color, ofName?_eq_none_iff.2 h]
  | unknownOption h hColor hOther =>
      simp [Options.parseFrom, Argument.of_unknown h hColor hOther]
  | tooManyScripts h hSecond =>
      obtain ⟨path, hPath⟩ := List.length_eq_one_iff.1 hSecond
      simp [Options.parseFrom, Argument.of_script h, hPath]

/-- An argument that decides does so whatever is next. -/
theorem Decisive.exists_decides (h : Decisive before arg) (next : Option String) :
    ∃ result, Decides before arg next result := by
  obtain ⟨next', result, h⟩ := h
  cases h with
  | explain code =>
      cases next with
      | none => exact ⟨_, .missingCode⟩
      | some code => exact ⟨_, .explain code⟩
  | missingCode =>
      cases next with
      | none => exact ⟨_, .missingCode⟩
      | some code => exact ⟨_, .explain code⟩
  | help h => exact ⟨_, .help h⟩
  | version h => exact ⟨_, .version h⟩
  | invalidColor h => exact ⟨_, .invalidColor h⟩
  | unknownOption h hColor hOther => exact ⟨_, .unknownOption h hColor hOther⟩
  | tooManyScripts h hSecond => exact ⟨_, .tooManyScripts h hSecond⟩

/-- A path asks for no colour. -/
theorem colorOf?_of_path (h : isOption arg = false) : colorOf? arg = none := by
  apply colorOf?_of_not_startsWith
  intro hColor
  exact (isOption_eq_false_iff.1 h).1 (startsWith_dashes hColor)

theorem Decides.not_color (h : Decides before arg next result) : colorOf? arg = none := by
  cases h with
  | explain | missingCode => rfl
  | help h => rcases h with rfl | rfl <;> rfl
  | version h => rcases h with rfl | rfl <;> rfl
  | invalidColor h => rw [colorOf?_color, ofName?_eq_none_iff.2 h]
  | unknownOption _ hColor => exact colorOf?_of_not_startsWith hColor
  | tooManyScripts h => exact colorOf?_of_path h

theorem Decides.length_paths (h : Decides before arg next result) (hPath : isOption arg = false) :
    (paths before).length = 1 := by
  obtain ⟨hDashes, hHelp, hVersion⟩ := isOption_eq_false_iff.1 hPath
  cases h with
  | explain | missingCode => simp at hDashes
  | help h =>
      rcases h with rfl | rfl
      · simp at hDashes
      · exact absurd rfl hHelp
  | version h =>
      rcases h with rfl | rfl
      · simp at hDashes
      · exact absurd rfl hVersion
  | invalidColor h => simp at hDashes
  | unknownOption h => exact absurd h hDashes
  | tooManyScripts _ hSecond => exact hSecond

/-- Only `--explain` looks at what is next. -/
theorem Decides.congr_next {next' : Option String} (h : Decides before arg next result)
    (hNext : arg = "--explain" → next' = next) : Decides before arg next' result := by
  cases h with
  | explain code =>
      rw [hNext rfl]
      exact .explain code
  | missingCode =>
      rw [hNext rfl]
      exact .missingCode
  | help h => exact .help h
  | version h => exact .version h
  | invalidColor h => exact .invalidColor h
  | unknownOption h hColor hOther => exact .unknownOption h hColor hOther
  | tooManyScripts h hSecond => exact .tooManyScripts h hSecond

/-- What does not decide is a colour option, or a path that is not the second one. -/
theorem not_decisive_iff :
    ¬Decisive before arg ↔
      (colorOf? arg).isSome ∨ isOption arg = false ∧ (paths before).length ≠ 1 := by
  constructor
  · intro h
    have hNone : ∀ {result}, ¬Decides before arg none result := fun hDecides => h ⟨_, _, hDecides⟩
    by_cases hColor : arg.startsWith "--color="
    · obtain ⟨value, rfl⟩ := startsWith_iff.1 hColor
      left
      rw [colorOf?_color, Option.isSome_iff_ne_none, ne_eq, ofName?_eq_none_iff]
      exact fun hValue => hNone (.invalidColor hValue)
    · right
      rw [isOption_eq_false_iff]
      have hHelp : arg ≠ "-h" := fun hArg => hNone (.help (.inr hArg))
      have hVersion : arg ≠ "-V" := fun hArg => hNone (.version (.inr hArg))
      have hDashes : ¬arg.startsWith "--" := by
        intro hDashes
        refine hNone (.unknownOption hDashes hColor ?_)
        simp only [List.mem_cons, List.not_mem_nil, or_false]
        rintro (rfl | rfl | rfl)
        · exact hNone .missingCode
        · exact hNone (.help (.inl rfl))
        · exact hNone (.version (.inl rfl))
      refine ⟨⟨hDashes, hHelp, hVersion⟩, fun hSecond => hNone (.tooManyScripts ?_ hSecond)⟩
      exact isOption_eq_false_iff.2 ⟨hDashes, hHelp, hVersion⟩
  · rintro (hColor | ⟨hPath, hFirst⟩) ⟨_, _, hDecides⟩
    · simp [hDecides.not_color] at hColor
    · exact hFirst (hDecides.length_paths hPath)

/-! ## Arguments that decide nothing -/

theorem undecided_nil : Undecided [] := by
  intro before arg rest hArgs
  simp at hArgs

theorem undecided_concat : Undecided (args ++ [arg]) ↔ Undecided args ∧ ¬Decisive args arg := by
  constructor
  · intro h
    refine ⟨fun before other rest hArgs => ?_, h args arg [] rfl⟩
    exact h before other (rest ++ [arg]) (by simp [hArgs])
  · rintro ⟨hBefore, hLast⟩ before other rest hArgs
    rcases List.eq_nil_or_concat rest with rfl | ⟨rest, last, rfl⟩
    · obtain ⟨rfl, hOther⟩ := List.append_inj' hArgs rfl
      obtain rfl : arg = other := by simpa using hOther
      exact hLast
    · have hSplit : args ++ [arg] = (before ++ other :: rest) ++ [last] := by simpa using hArgs
      exact hBefore before other rest (List.append_inj' hSplit rfl).1

theorem lastColor_concat (args : List String) (arg : String) :
    lastColor (args ++ [arg]) = (colorOf? arg).getD (lastColor args) := by
  cases h : colorOf? arg <;> simp [lastColor, h]

theorem paths_concat (args : List String) (arg : String) :
    paths (args ++ [arg]) = if isOption arg then paths args else paths args ++ [arg] := by
  cases h : isOption arg <;> simp [paths, h]

theorem isOption_of_color (h : (colorOf? arg).isSome) : isOption arg = true := by
  by_contra hPath
  rw [Bool.not_eq_true] at hPath
  simp [colorOf?_of_path hPath] at h

/-- Arguments that decide nothing are colour options and at most one path. -/
theorem undecided_iff :
    Undecided args ↔
      (∀ arg ∈ args, (colorOf? arg).isSome ∨ isOption arg = false) ∧ (paths args).length ≤ 1 := by
  induction args using List.reverseRecOn with
  | nil => simp [undecided_nil, paths]
  | append_singleton args arg ih =>
      rw [undecided_concat, ih, not_decisive_iff, paths_concat]
      cases hOption : isOption arg with
      | true =>
          simp only [if_true, List.forall_mem_append, List.forall_mem_singleton, hOption,
            Bool.true_eq_false, false_and, or_false]
          tauto
      | false =>
          simp only [colorOf?_of_path hOption, List.forall_mem_append, List.forall_mem_singleton,
            Bool.false_eq_true, if_false, List.length_append, List.length_singleton]
          have hLength : (paths args).length ≤ 1 ∧ (paths args).length ≠ 1 ↔
              (paths args).length + 1 ≤ 1 := by omega
          tauto

/-- The arguments decide nothing, or one of them is the first that decides. -/
theorem undecided_or_exists_first (args : List String) :
    Undecided args ∨
      ∃ before arg rest, args = before ++ arg :: rest ∧ Undecided before ∧ Decisive before arg := by
  induction args using List.reverseRecOn with
  | nil => exact .inl undecided_nil
  | append_singleton args last ih =>
      rcases ih with hAll | ⟨before, arg, rest, rfl, hBefore, hArg⟩
      · by_cases hLast : Decisive args last
        · exact .inr ⟨args, last, [], rfl, hAll, hLast⟩
        · exact .inl (undecided_concat.2 ⟨hAll, hLast⟩)
      · exact .inr ⟨before, arg, rest ++ [last], by simp, hBefore, hArg⟩

theorem parseFrom_color {color color' : ColorMode} (h : colorOf? arg = some color')
    (script : Option String) (rest : List String) :
    Options.parseFrom color script (arg :: rest) = Options.parseFrom color' script rest := by
  have hStart : arg.startsWith "--color=" := by
    by_contra hOther
    simp [colorOf?_of_not_startsWith hOther] at h
  obtain ⟨value, rfl⟩ := startsWith_iff.1 hStart
  rw [colorOf?_color] at h
  simp [Options.parseFrom, Argument.of_color, h]

/-- Behind arguments that decide nothing, reading goes on with what they have left. -/
theorem parse_append_of_undecided (h : Undecided before) (rest : List String) :
    Options.parse (before ++ rest) =
      Options.parseFrom (lastColor before) (paths before).head? rest := by
  induction before using List.reverseRecOn generalizing rest with
  | nil => rfl
  | append_singleton before arg ih =>
      obtain ⟨hBefore, hArg⟩ := undecided_concat.1 h
      rw [List.append_assoc, List.singleton_append, ih hBefore, lastColor_concat, paths_concat]
      rcases not_decisive_iff.1 hArg with hColor | ⟨hPath, hFirst⟩
      · obtain ⟨color, hSome⟩ := Option.isSome_iff_exists.1 hColor
        rw [parseFrom_color hSome, hSome, isOption_of_color hColor]
        rfl
      · -- The arguments before hold at most one path, so that they hold none.
        have hLength := (undecided_iff.1 hBefore).2
        have hNil : paths before = [] := List.length_eq_zero_iff.1 (by omega)
        simp [Options.parseFrom, Argument.of_script hPath, colorOf?_of_path hPath, hNil, hPath]

theorem parse_of_undecided (h : Undecided args) :
    Options.parse args = .ok ⟨lastColor args, (paths args).head?.elim .prompt .script⟩ := by
  have hParse := parse_append_of_undecided h []
  rw [List.append_nil] at hParse
  rw [hParse]
  cases (paths args).head? <;> rfl

/-! ## Colour options that are moved -/

/-- The colour options of a command line. -/
def colorOptions (args : List String) : List String :=
  args.filter fun arg => (colorOf? arg).isSome

/-- All other arguments of a command line. -/
def otherArguments (args : List String) : List String :=
  args.filter fun arg => (colorOf? arg).isNone

theorem lastColor_colorOptions (args : List String) :
    lastColor (colorOptions args) = lastColor args := by
  have hColors : (colorOptions args).filterMap colorOf? = args.filterMap colorOf? := by
    induction args with
    | nil => rfl
    | cons arg args ih => cases h : colorOf? arg <;> simp_all [colorOptions]
  rw [lastColor, lastColor, hColors]

theorem paths_otherArguments (args : List String) : paths (otherArguments args) = paths args := by
  rw [paths, otherArguments, List.filter_filter, paths]
  refine List.filter_congr fun arg _ => ?_
  cases hOption : isOption arg with
  | true => rfl
  | false => simp [colorOf?_of_path hOption]

theorem undecided_otherArguments_iff : Undecided (otherArguments args) ↔ Undecided args := by
  rw [undecided_iff, undecided_iff, paths_otherArguments]
  refine and_congr_left fun _ => ⟨fun h arg hArg => ?_, fun h arg hArg => ?_⟩
  · by_cases hColor : (colorOf? arg).isSome
    · exact .inl hColor
    · exact h arg (List.mem_filter.2 ⟨hArg, by simpa using hColor⟩)
  · exact h arg (List.mem_filter.1 hArg).1

/-! ## Command lines -/

/--
**The first argument that decides wins.** If there is one, the command line means what it
decides there, and this does not depend on what follows, but for the argument right behind
`--explain`. If there is none, at most one argument is no option; it is the script to be
run, and without it there is a prompt. Then the colour options may stand anywhere, as long
as they stay in order among themselves.
-/
theorem parse_eq_of_decisions (args : List String) :
    (¬Undecided args →
      ∃ before arg rest, args = before ++ arg :: rest ∧ Undecided before ∧ Decisive before arg) ∧
    (∀ before arg rest, args = before ++ arg :: rest → Undecided before → Decisive before arg →
      (∀ result, Decides before arg rest.head? result ↔ Options.parse args = result) ∧
      ∀ rest', (arg = "--explain" → rest'.head? = rest.head?) →
        Options.parse (before ++ arg :: rest') = Options.parse args) ∧
    (Undecided args →
      (paths args).length ≤ 1 ∧
      Options.parse args = .ok ⟨lastColor args, (paths args).head?.elim .prompt .script⟩ ∧
      ∀ args', colorOptions args' = colorOptions args → otherArguments args' = otherArguments args →
        Options.parse args' = Options.parse args) := by
  refine ⟨(undecided_or_exists_first args).resolve_left, ?_, fun hAll => ⟨?_, ?_, ?_⟩⟩
  · rintro before arg rest rfl hBefore hArg
    have hParse {rest : List String} {result : Except UsageError Options}
        (h : Decides before arg rest.head? result) :
        Options.parse (before ++ arg :: rest) = result := by
      rw [parse_append_of_undecided hBefore, h.parseFrom_eq]
    obtain ⟨result, hDecides⟩ := hArg.exists_decides rest.head?
    refine ⟨fun result' => ⟨hParse, fun hResult => ?_⟩, fun rest' hNext => ?_⟩
    · rwa [← hResult, hParse hDecides]
    · rw [hParse (hDecides.congr_next hNext), hParse hDecides]
  · exact (undecided_iff.1 hAll).2
  · exact parse_of_undecided hAll
  · intro args' hColors hOthers
    have hAll' : Undecided args' := by
      rwa [← undecided_otherArguments_iff, hOthers, undecided_otherArguments_iff]
    rw [parse_of_undecided hAll', parse_of_undecided hAll, ← lastColor_colorOptions args', hColors,
      lastColor_colorOptions, ← paths_otherArguments args', hOthers, paths_otherArguments]

end TinyScript.CommandLine
