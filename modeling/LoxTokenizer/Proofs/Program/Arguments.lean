import LoxTokenizer.Proofs.Program.FileArgument

/-!
# What each argument asks for

Behind arguments that ask for some flags stands one more. What they ask for together is told by the
flags so far and by that argument, whatever else has been read: a switch or an option sets its own
flag, once, and leaves the others, an argument without a dash is the file, and help and the version
end the reading, so that nothing behind them matters.

* `Flags.Reading.Stands`: where the reading stands behind arguments that ask for some flags.
* **`Flags.parse_noTrivia`**, **`Flags.parse_eof`**, **`Flags.parse_quiet`**: what a switch sets.
* **`Flags.parse_help`**, **`Flags.parse_version`**: what ends the reading.
* `Flags.parse_valued_switch`, `Flags.parse_unknown`, `Flags.parse_unknown_letter`: what is refused.
* **`Flags.parse_format`**, **`Flags.parse_config`**: what an option sets.
* `Flags.parse_option_value`: the value of an option may be an argument of its own.
  `Flags.parse_option_missing`: it may not be missing.
* **`Flags.parse_file`**, `Flags.parse_dashes_file`: what is the file.
* `Flags.parse_letters`: letters may share a dash.
-/

namespace LoxTokenizer

/-- The name of an option behind its two dashes. -/
def ValueFlag.longName : ValueFlag → String
  | .format => "format"
  | .config => "config"

namespace Flags

/-- An argument that is a switch, by its long name or by its letter. -/
inductive IsSwitch : SwitchFlag → Bool → String → Prop where
  | noTrivia : IsSwitch .noTrivia true "--no-trivia"
  | eof : IsSwitch .eof true "--eof"
  | quiet : IsSwitch .quiet true "--quiet"
  | quietLetter : IsSwitch .quiet false "-q"
  | help : IsSwitch .help true "--help"
  | helpLetter : IsSwitch .help false "-h"
  | version : IsSwitch .version true "--version"
  | versionLetter : IsSwitch .version false "-V"

/-- An argument that is no option, no switch and no two dashes alone: it does not start with a dash,
or is a single one. -/
def IsPlain (text : String) : Prop :=
  ∀ c rest, text.toList ≠ '-' :: c :: rest

namespace Reading

variable {r s : Reading} {arguments : List String} {flags : Flags} {text : String}
  {option : ValueFlag} {switch : SwitchFlag} {isLong : Bool}

/-! ## The forms of an argument -/

theorem argument_long {name : List Char} (hr : r.filesOnly = false) (hname : name ≠ []) :
    r.argument (String.ofList ('-' :: '-' :: name)) =
      r.long (String.ofList (name.takeWhile (· != '=')))
        (attached? (name.dropWhile (· != '='))) := by
  unfold argument
  rw [if_neg (by simp [hr]), String.toList_ofList]
  cases name with
  | nil => exact absurd rfl hname
  | cons c rest => rfl

theorem argument_letters {c : Char} {rest : List Char} (hr : r.filesOnly = false) (hc : c ≠ '-') :
    r.argument (String.ofList ('-' :: c :: rest)) = (c :: rest).foldlM letter r := by
  unfold argument
  rw [if_neg (by simp [hr]), String.toList_ofList]
  split
  · rename_i heq
    cases heq
    exact absurd rfl hc
  · rename_i heq
    cases heq
    exact absurd rfl hc
  · rename_i heq
    cases heq
    rfl
  · rename_i hno
    exact absurd rfl (hno c rest)

theorem argument_letter {c : Char} (hr : r.filesOnly = false) (hc : c ≠ '-') :
    r.argument (String.ofList ['-', c]) = r.letter c := by
  rw [argument_letters hr hc, List.foldlM_cons]
  exact bind_pure (r.letter c)

theorem argument_switch (h : IsSwitch switch isLong text) (hr : r.filesOnly = false) :
    r.argument text = r.settle.bind fun r => r.setSwitch switch isLong := by
  cases h with
  -- each long name is looked up by evaluation
  | noTrivia | eof | quiet | help | version =>
    unfold argument
    rw [if_neg (by simp [hr])]
    rfl
  | quietLetter => exact argument_letter (c := 'q') hr (by decide)
  | helpLetter => exact argument_letter (c := 'h') hr (by decide)
  | versionLetter => exact argument_letter (c := 'V') hr (by decide)

theorem argument_option (hr : r.filesOnly = false) :
    r.argument ("--" ++ option.longName) =
      r.settle.map fun r => { r with pending := some (.value option none) } := by
  unfold argument
  rw [if_neg (by simp [hr])]
  cases option <;> rfl

theorem argument_option_value (hr : r.filesOnly = false) :
    r.argument ("--" ++ option.longName ++ "=" ++ text) =
      r.settle.bind fun r => r.setOption option text := by
  unfold argument
  rw [if_neg (by simp [hr]), String.toList_append]
  cases option with
  | format =>
    show r.long "format" (some (String.ofList text.toList)) = _
    rw [String.ofList_toList]
    rfl
  | config =>
    show r.long "config" (some (String.ofList text.toList)) = _
    rw [String.ofList_toList]
    rfl

theorem argument_dashes (hr : r.filesOnly = false) :
    r.argument "--" = .ok { r with filesOnly := true } := by
  unfold argument
  rw [if_neg (by simp [hr])]
  rfl

theorem argument_plain (h : IsPlain text) (hr : r.filesOnly = false) :
    r.argument text = r.plain text := by
  unfold argument
  rw [if_neg (by simp [hr])]
  split
  · rename_i heq
    exact absurd heq (h _ _)
  · rename_i heq
    exact absurd heq (h _ _)
  · rename_i heq
    exact absurd heq (h _ _)
  · rfl

/-! ## The end of a reading -/

/-- The flags that a reading comes to, with no arguments left. -/
def finish (r : Reading) : Except Interruption Flags :=
  r.settle.map fun r => r.flags

theorem finish_of_pending (h : r.pending = none) : r.finish = .ok r.flags := by
  unfold finish settle
  rw [h]
  rfl

theorem finish_file (r : Reading) (text : String) :
    finish { r with pending := some (.file text) } =
      if text = "" then .error (.error .invalidValue)
      else .ok { r.flags with file := some (.ofText text) } := by
  unfold finish settle
  dsimp only
  by_cases ht : text = ""
  · rw [if_pos ht, if_pos (String.isEmpty_iff.mpr ht)]
    rfl
  · rw [if_neg ht, if_neg (mt String.isEmpty_iff.mp ht)]
    rfl

/-- A file that is met last is looked at in the end, if it is the first. -/
theorem file_bind_finish (h : r.settle = .ok s) (text : String) : (r.file text).bind finish =
    if r.hasFile then .error (.error .unknownArgument)
    else if text = "" then .error (.error .invalidValue)
    else .ok { s.flags with file := some (.ofText text) } := by
  unfold file
  split
  · rfl
  · rw [h]
    exact finish_file { s with hasFile := true } text

/-- Where no option waits for a value, a plain argument is a file. -/
theorem plain_of_settle (h : r.settle = .ok s) : r.plain text = r.file text := by
  unfold plain
  split
  · rename_i hpending
    unfold settle at h
    rw [hpending] at h
    cases h
  · rfl

/-- Two dashes alone do not matter for an option. -/
theorem setOption_filesOnly : setOption { r with filesOnly := true } option text =
    (r.setOption option text).map fun r => { r with filesOnly := true } := by
  unfold setOption
  cases option with
  | format =>
    by_cases hset : r.flags.format.isSome = true
    · simp only [hset, if_true, Except.map]
    · simp only [hset, if_false, Bool.false_eq_true]
      cases OutputFormat.ofName? text <;> rfl
  | config =>
    by_cases hset : r.flags.config.isSome = true
    · simp only [hset, if_true, Except.map]
    · simp only [hset, if_false, Bool.false_eq_true]
      split <;> rfl

/-- Nor do they for any value that is pending. -/
theorem settle_filesOnly : settle { r with filesOnly := true } =
    r.settle.map fun r => { r with filesOnly := true } := by
  unfold settle
  dsimp only
  split
  · rfl
  · rfl
  · exact setOption_filesOnly (r := { r with pending := none })
  · split <;> rfl

/-! ## Where a reading stands -/

/-- The reading of some flags with nothing pending, where no two dashes alone have been met. -/
def settled (flags : Flags) : Reading :=
  ⟨flags, none, false, flags.file.isSome⟩

/-- **Where the reading stands** behind arguments that ask for some flags, with no two dashes alone
among them. -/
structure Stands (arguments : List String) (flags : Flags) (r : Reading) : Prop where
  read : arguments.foldlM argument start = .ok r
  settle : r.settle = .ok (settled flags)
  filesOnly : r.filesOnly = false
  hasFile : r.hasFile = flags.file.isSome

theorem exists_stands (h : parse arguments = .ok flags) (hd : "--" ∉ arguments) :
    ∃ r, Stands arguments flags r := by
  obtain ⟨r, hread, hflags⟩ := exists_of_bind_eq_ok h
  obtain ⟨s, hsettle, rfl⟩ := exists_of_map_eq_ok hflags
  have hsound := sound_of_read hread
  have heq := eq_of_settle hsettle
  have hfilesOnly : r.filesOnly = false := Bool.eq_false_iff.mpr fun h => hd (hsound.filesOnly h)
  have hhasFile : r.hasFile = s.flags.file.isSome := by
    have hmet := (hsound.settle hsettle).hasFile
    rw [heq] at hmet
    simpa [awaitsFile] using hmet
  refine ⟨r, hread, ?_, hfilesOnly, hhasFile⟩
  rw [hsettle, heq, settled, hfilesOnly, hhasFile]

theorem parse_append (arguments more : List String) :
    parse (arguments ++ more) = (arguments.foldlM argument start).bind fun r =>
      (more.foldlM argument r).bind finish := by
  unfold parse
  rw [List.foldlM_append]
  cases arguments.foldlM argument start <;> rfl

namespace Stands

theorem parse_cons (h : Stands arguments flags r) (text : String) (more : List String) :
    parse (arguments ++ text :: more) =
      ((r.argument text).bind fun r => more.foldlM argument r).bind finish := by
  rw [parse_append, h.read]
  exact congrArg (Except.bind · finish) List.foldlM_cons

theorem parse_concat (h : Stands arguments flags r) (text : String) :
    parse (arguments ++ [text]) = (r.argument text).bind finish := by
  rw [h.parse_cons]
  exact congrArg (Except.bind · finish) (bind_pure (r.argument text))

theorem parse_pair (h : Stands arguments flags r) {first second : String}
    (hfirst : r.argument first = .ok s) :
    parse (arguments ++ [first, second]) = (s.argument second).bind finish := by
  rw [h.parse_cons, hfirst]
  exact congrArg (Except.bind · finish) (bind_pure (s.argument second))

/-- What is refused is refused whatever comes behind it. -/
theorem parse_error (h : Stands arguments flags r) {e : Interruption}
    (ht : r.argument text = .error e) (more : List String) :
    parse (arguments ++ text :: more) = .error e := by
  rw [h.parse_cons, ht]
  rfl

end Stands

end Reading

open Reading

variable {arguments : List String} {flags : Flags} {text : String} {switch : SwitchFlag}
  {isLong : Bool}

/-! ## Switches -/

section Behind

variable (h : parse arguments = .ok flags) (hd : "--" ∉ arguments)

include h hd

/-- A switch is set on the flags so far. -/
theorem parse_switch (hs : IsSwitch switch isLong text) :
    parse (arguments ++ [text]) = ((settled flags).setSwitch switch isLong).bind finish := by
  obtain ⟨r, hr⟩ := exists_stands h hd
  rw [hr.parse_concat, argument_switch hs hr.filesOnly, hr.settle]
  rfl

theorem parse_noTrivia : parse (arguments ++ ["--no-trivia"]) =
    if flags.noTrivia then .error (.error .argumentConflict)
    else .ok { flags with noTrivia := true } := by
  rw [parse_switch h hd .noTrivia]
  exact apply_ite (Except.bind · finish) (flags.noTrivia = true) _ _

theorem parse_eof : parse (arguments ++ ["--eof"]) =
    if flags.eof then .error (.error .argumentConflict)
    else .ok { flags with eof := true } := by
  rw [parse_switch h hd .eof]
  exact apply_ite (Except.bind · finish) (flags.eof = true) _ _

theorem parse_quiet (hs : IsSwitch .quiet isLong text) : parse (arguments ++ [text]) =
    if flags.quiet then .error (.error .argumentConflict)
    else .ok { flags with quiet := true } := by
  rw [parse_switch h hd hs]
  exact apply_ite (Except.bind · finish) (flags.quiet = true) _ _

/-- A switch that ends the reading does so whatever comes behind. -/
theorem parse_switch_error (hs : IsSwitch switch isLong text) {e : Interruption}
    (he : (settled flags).setSwitch switch isLong = .error e) (more : List String) :
    parse (arguments ++ text :: more) = .error e := by
  obtain ⟨r, hr⟩ := exists_stands h hd
  refine hr.parse_error ?_ more
  rw [argument_switch hs hr.filesOnly, hr.settle]
  exact he

/-- **Help** is given at once, whatever comes behind. -/
theorem parse_help (hs : IsSwitch .help isLong text) (more : List String) :
    parse (arguments ++ text :: more) = .error (.help isLong) :=
  parse_switch_error h hd hs rfl more

/-- **The version** is given at once, whatever comes behind. -/
theorem parse_version (hs : IsSwitch .version isLong text) (more : List String) :
    parse (arguments ++ text :: more) = .error .version :=
  parse_switch_error h hd hs rfl more

/-- A switch takes no value. -/
theorem parse_valued_switch (hs : IsSwitch switch true text) (value : String)
    (more : List String) :
    parse (arguments ++ (text ++ "=" ++ value) :: more) = .error (.error .tooManyValues) := by
  obtain ⟨r, hr⟩ := exists_stands h hd
  refine hr.parse_error ?_ more
  unfold argument
  rw [if_neg (by simp [hr.filesOnly]), String.toList_append]
  cases hs <;> rfl

/-- A long name has to be known, up to the equals sign. -/
theorem parse_unknown {name : List Char} (hname : name ≠ [])
    (hunknown : ofLongName? (String.ofList (name.takeWhile (· != '='))) = none)
    (more : List String) : parse (arguments ++ String.ofList ('-' :: '-' :: name) :: more) =
      .error (.error .unknownArgument) := by
  obtain ⟨r, hr⟩ := exists_stands h hd
  refine hr.parse_error ?_ more
  rw [argument_long hr.filesOnly hname]
  unfold long
  rw [hunknown]

/-- So has a letter. -/
theorem parse_unknown_letter {c : Char} (hc : c ≠ '-') (hunknown : ofLetter? c = none)
    (more : List String) : parse (arguments ++ String.ofList ['-', c] :: more) =
      .error (.error .unknownArgument) := by
  obtain ⟨r, hr⟩ := exists_stands h hd
  refine hr.parse_error ?_ more
  rw [argument_letter hr.filesOnly hc, letter, hunknown]

/-! ## Options -/

/-- An option is set on the flags so far. -/
theorem parse_option (option : ValueFlag) (text : String) :
    parse (arguments ++ ["--" ++ option.longName ++ "=" ++ text]) =
      ((settled flags).setOption option text).bind finish := by
  obtain ⟨r, hr⟩ := exists_stands h hd
  rw [hr.parse_concat, argument_option_value hr.filesOnly, hr.settle]
  rfl

/-- **The format** is set once, to one that there is. -/
theorem parse_format (text : String) : parse (arguments ++ ["--format=" ++ text]) =
    if flags.format.isSome then .error (.error .argumentConflict)
    else
      match OutputFormat.ofName? text with
      | some format => .ok { flags with format := some format }
      | none => .error (.error .invalidValue) := by
  refine (parse_option h hd .format text).trans ?_
  refine (apply_ite (Except.bind · finish) (flags.format.isSome = true) _ _).trans ?_
  cases OutputFormat.ofName? text <;> rfl

/-- **The manifest** is named once, by a path that is not empty. -/
theorem parse_config (text : String) : parse (arguments ++ ["--config=" ++ text]) =
    if flags.config.isSome then .error (.error .argumentConflict)
    else if text = "" then .error (.error .invalidValue)
    else .ok { flags with config := some (.ofText text) } := by
  refine (parse_option h hd .config text).trans ?_
  unfold setOption
  by_cases hset : flags.config.isSome = true
  · simp only [settled, hset, if_true]
    rfl
  · by_cases ht : text = ""
    · simp only [settled, hset, String.isEmpty_iff, ht, if_true, if_false, Bool.false_eq_true]
      rfl
    · simp only [settled, hset, String.isEmpty_iff, ht, if_false, Bool.false_eq_true]
      rfl

/-- **The value of an option** may be an argument of its own, if that is plain. -/
theorem parse_option_value (option : ValueFlag) (ht : IsPlain text) :
    parse (arguments ++ ["--" ++ option.longName, text]) =
      parse (arguments ++ ["--" ++ option.longName ++ "=" ++ text]) := by
  obtain ⟨r, hr⟩ := exists_stands h hd
  let waiting : Reading := { settled flags with pending := some (.value option none) }
  have hoption : r.argument ("--" ++ option.longName) = .ok waiting := by
    rw [argument_option hr.filesOnly, hr.settle]
    rfl
  have hvalue : waiting.argument text =
      .ok { waiting with pending := some (.value option (some text)) } :=
    argument_plain ht rfl
  rw [parse_option h hd, hr.parse_pair hoption, hvalue]
  -- with no arguments left, the value that waits is looked at on the flags so far
  show ((settled flags).setOption option text).map (fun r => r.flags) = _
  cases hset : (settled flags).setOption option text with
  | error e => rfl
  | ok r =>
    have hpending : r.pending = none := by rw [(eq_of_setOption hset).1]; rfl
    exact (finish_of_pending hpending).symm

/-- An option does not go without a value. -/
theorem parse_option_missing (option : ValueFlag) :
    parse (arguments ++ ["--" ++ option.longName]) = .error (.error .invalidValue) := by
  obtain ⟨r, hr⟩ := exists_stands h hd
  rw [hr.parse_concat, argument_option hr.filesOnly, hr.settle]
  rfl

/-! ## The file -/

/-- **The file** is what a plain argument names, and there is one at most. -/
theorem parse_file (ht : IsPlain text) : parse (arguments ++ [text]) =
    if flags.file.isSome then .error (.error .unknownArgument)
    else if text = "" then .error (.error .invalidValue)
    else .ok { flags with file := some (.ofText text) } := by
  obtain ⟨r, hr⟩ := exists_stands h hd
  rw [hr.parse_concat, argument_plain ht hr.filesOnly, plain_of_settle hr.settle,
    file_bind_finish hr.settle, hr.hasFile]
  rfl

/-- **Behind two dashes alone** any argument names the file. -/
theorem parse_dashes_file (text : String) : parse (arguments ++ ["--", text]) =
    if flags.file.isSome then .error (.error .unknownArgument)
    else if text = "" then .error (.error .invalidValue)
    else .ok { flags with file := some (.ofText text) } := by
  obtain ⟨r, hr⟩ := exists_stands h hd
  have hsettle : settle { r with filesOnly := true } =
      .ok { settled flags with filesOnly := true } := by
    rw [settle_filesOnly, hr.settle]
    rfl
  rw [hr.parse_pair (argument_dashes hr.filesOnly)]
  refine (file_bind_finish hsettle text).trans ?_
  rw [hr.hasFile]
  rfl

end Behind

example : parse [] = .ok .unset := rfl

example : parse ["--format", "json", "-q", "--", "-a.lox"] =
    .ok { Flags.unset with format := some .json, quiet := true, file := some (.ofText "-a.lox") } :=
  rfl

/-! ## Rows of letters -/

/-- **Letters may share a dash**: they are read one by one. -/
theorem parse_letters {c d : Char} {row : List Char} (hdashes : "--" ∉ arguments) (hc : c ≠ '-')
    (hd : d ≠ '-') (more : List String) :
    parse (arguments ++ String.ofList ('-' :: c :: d :: row) :: more) =
      parse (arguments ++ String.ofList ['-', c] :: String.ofList ('-' :: d :: row) :: more) := by
  rw [parse_append, parse_append]
  cases hread : arguments.foldlM argument start with
  | error e => rfl
  | ok r =>
    have hfilesOnly {r : Reading} (h : r.Sound ("--" ∈ arguments)) : r.filesOnly = false :=
      Bool.eq_false_iff.mpr fun hr => hdashes (h.filesOnly hr)
    have hsound := sound_of_read hread
    have hrow : r.argument (String.ofList ('-' :: c :: d :: row)) =
        (r.letter c).bind fun r => r.argument (String.ofList ('-' :: d :: row)) := by
      rw [argument_letters (hfilesOnly hsound) hc, List.foldlM_cons]
      cases hletter : r.letter c with
      | error e => rfl
      | ok between => exact (argument_letters (hfilesOnly (hsound.letter hletter)) hd).symm
    refine congrArg (Except.bind · finish) ?_
    rw [List.foldlM_cons, List.foldlM_cons, hrow, argument_letter (hfilesOnly hsound) hc]
    cases r.letter c <;> rfl

end Flags

end LoxTokenizer
