import ModAlmanac.Number.Numeral
import ModAlmanac.Text.Blank
import ModAlmanac.Text.Digit
import ModAlmanac.Text.Quoted

/-!
Arguments of the command: the keys of mods, which stand together, and switches. A long switch may be
cut short as long as what is left begins no other one; short ones may be written in one; behind `--`
everything is a key.
-/

namespace ModAlmanac.Command

open Text

/-! ## Switches -/

/-- What can be switched. `help` and `version` end the command before it begins. Of the others only
`check` and `write` make a difference to what it does, though colours cannot be both forbidden and
demanded. -/
inductive Switch where
  | help
  | version
  | verbosity
  | settings
  | modulePath
  | traceback
  | noColor
  | forceColor
  | skipChecks
  | check
  | write
  deriving Repr, DecidableEq

/-- The switches in the order in which they are listed. -/
def Switch.all : List Switch :=
  [.help, .version, .verbosity, .settings, .modulePath, .traceback, .noColor, .forceColor,
    .skipChecks, .check, .write]

def Switch.name : Switch → String
  | .help => "--help"
  | .version => "--version"
  | .verbosity => "--verbosity"
  | .settings => "--settings"
  | .modulePath => "--pythonpath"
  | .traceback => "--traceback"
  | .noColor => "--no-color"
  | .forceColor => "--force-color"
  | .skipChecks => "--skip-checks"
  | .check => "--check"
  | .write => "--write"

def Switch.shortName? : Switch → Option String
  | .help => some "-h"
  | .verbosity => some "-v"
  | _ => none

def Switch.title (switch : Switch) : String :=
  match switch.shortName? with
  | some short => short ++ "/" ++ switch.name
  | none => switch.name

def Switch.takesValue : Switch → Bool
  | .verbosity => true
  | .settings => true
  | .modulePath => true
  | _ => false

def Switch.isFinal : Switch → Bool
  | .help => true
  | .version => true
  | _ => false

/-! ## Errors -/

/-- Why some arguments lead to no work. -/
inductive UsageError where
  | missingKeys
  | unrecognized (arguments : List String)
  | unexpectedValue (switch : Switch) (value : String)
  | missingValue (switch : Switch)
  | notAnInteger (switch : Switch) (value : String)
  /-- The level is none of those there are. -/
  | unknownLevel (switch : Switch) (level : Int)
  | ambiguous (given : String) (switches : List Switch)
  | bothColors
  | final (switch : Switch)
  deriving Repr, DecidableEq

def atSwitch (switch : Switch) (text : String) : String :=
  "Error: argument " ++ switch.title ++ ": " ++ text

/-- The message about arguments that lead to no work, where there is anything to complain of. -/
def UsageError.message? : UsageError → Option String
  | .missingKeys => some "Error: the following arguments are required: MOD_KEY"
  | .unrecognized arguments =>
    some ("Error: unrecognized arguments: " ++ " ".intercalate arguments)
  | .unexpectedValue switch value =>
    some (atSwitch switch ("ignored explicit argument " ++ String.ofList (quoted value.toList)))
  | .missingValue switch => some (atSwitch switch "expected one argument")
  | .notAnInteger switch value =>
    some (atSwitch switch ("invalid int value: " ++ String.ofList (quoted value.toList)))
  | .unknownLevel switch level =>
    some (atSwitch switch ("invalid choice: " ++ String.ofList (Number.intText level) ++
      " (choose from 0, 1, 2, 3)"))
  | .ambiguous given switches =>
    some ("Error: ambiguous option: " ++ given ++ " could match " ++
      ", ".intercalate (switches.map Switch.name))
  | .bothColors => some "The --no-color and --force-color options can't be used together."
  | .final _ => none

/-! ## Words -/

/-- An argument by itself. -/
inductive Word where
  | key (text : String)
  /-- A switch, whether it stands there by its short name, and the value written in one with it. -/
  | switch (switch : Switch) (isShort : Bool) (value : Option String)
  | unknown (text : String)
  /-- The `--` behind which everything is a key. -/
  | rest
  deriving Repr, DecidableEq

/-- Whether the text behind a dash is a number. A line end behind it does not count. -/
def isNumber (s : List Char) : Bool :=
  let text := dropLineEnd s
  match text.dropWhile isDecimalDigit with
  | [] => !text.isEmpty
  | '.' :: fraction => !fraction.isEmpty && fraction.all isDecimalDigit
  | _ => false

/-- The word of a text that no switch begins. What begins with a dash is a key only if it is a
negative number or has a space in it. -/
def otherWord (text : String) : Word :=
  match text.toList with
  | '-' :: behind =>
    if behind.isEmpty || isNumber behind || behind.contains ' ' then .key text else .unknown text
  | _ => .key text

/-- The switch of a name, short or long. -/
def Switch.ofName? (name : String) : Option Switch :=
  Switch.all.find? fun switch => switch.name = name || switch.shortName? = some name

def Switch.startingWith (s : List Char) : List Switch :=
  Switch.all.filter fun switch => s.isPrefixOf switch.name.toList

def isLong (s : List Char) : Bool :=
  "--".toList.isPrefixOf s

/-- The word of a text that is no whole name: a name with an equals sign and a value, the beginning
of a long name, or a short name and right behind it its value. -/
def readPartial (text : String) : Except UsageError Word :=
  let s := text.toList
  let name := s.takeWhile (· ≠ '=')
  let value := (s.drop name.length).tail?.map String.ofList
  match value.bind fun _ => Switch.ofName? (String.ofList name) with
  | some switch => .ok (.switch switch (!isLong s) value)
  | none =>
    if isLong s then
      match Switch.startingWith name with
      | [] => .ok (otherWord text)
      | [switch] => .ok (.switch switch false value)
      | several => .error (.ambiguous text several)
    else
      match Switch.ofName? (String.ofList (s.take 2)) with
      | some switch => .ok (.switch switch true (some (String.ofList (s.drop 2))))
      | none => .ok (otherWord text)

def readWord (text : String) : Except UsageError Word :=
  match Switch.ofName? text with
  | some switch => .ok (.switch switch (!isLong text.toList) none)
  | none => readPartial text

def readWords : List String → Except UsageError (List Word)
  | [] => .ok []
  | text :: behind =>
    if text = "--" then .ok (.rest :: behind.map .key)
    else do
      let word ← readWord text
      let words ← readWords behind
      pure (word :: words)

/-! ## Values -/

/-- Whether a switch accepts a value: levels are the integers from 0 to 3. -/
def Switch.accept (switch : Switch) (value : String) : Except UsageError Unit :=
  match switch with
  | .verbosity =>
    match Number.intOfText? value.toList with
    | none => .error (.notAnInteger switch value)
    | some level => if 0 ≤ level ∧ level ≤ 3 then .ok () else .error (.unknownLevel switch level)
  | _ => .ok ()

/-- The last one of some switches that are written in one, with what is left for its value. What
stands behind a switch that takes no value begins with the letter of the next one. -/
def Switch.lastOf (switch : Switch) : List Char → Except UsageError (Switch × Option String)
  | [] => .error (.unexpectedValue switch "")
  | c :: rest =>
    if switch.takesValue then .ok (switch, some (String.ofList (c :: rest)))
    else
      match Switch.ofName? (String.ofList ['-', c]) with
      | none => .error (.unexpectedValue switch (String.ofList (c :: rest)))
      | some next => if rest.isEmpty then .ok (next, none) else next.lastOf rest

/-- The switch that is to have a value, and the value if it is written in one with it. -/
def Switch.withValue (switch : Switch) (isShort : Bool) :
    Option String → Except UsageError (Switch × Option String)
  | none => .ok (switch, none)
  | some value =>
    if switch.takesValue then .ok (switch, some value)
    else if isShort then switch.lastOf value.toList
    else .error (.unexpectedValue switch value)

/-- A switch, and all that is written in one with it, takes effect. -/
def Switch.settle (switch last : Switch) (value : Option String) : Except UsageError Unit :=
  if switch.isFinal then .error (.final switch)
  else
    match value with
    | some text => last.accept text
    | none => .ok ()

/-- The words where every switch that takes a value has it, be it its own or the key behind it. -/
def giveValues : List Word → Except UsageError (List Word)
  | [] => .ok []
  | .switch switch isShort own :: words => do
    let (last, value) ← switch.withValue isShort own
    if last.takesValue && value.isNone then
      match words with
      | .key text :: behind => do
        switch.settle last (some text)
        let others ← giveValues behind
        pure (.switch switch isShort (some text) :: others)
      | _ => .error (.missingValue last)
    else do
      switch.settle last value
      let others ← giveValues words
      pure (.switch switch isShort own :: others)
  | word :: words => do
    let others ← giveValues words
    pure (word :: others)

/-! ## Arguments -/

/-- The arguments of the command. -/
structure Arguments where
  keys : List String
  check : Bool
  write : Bool
  deriving Repr, DecidableEq

def Word.key? : Word → Option String
  | .key text => some text
  | _ => none

def Word.unknown? : Word → Option String
  | .unknown text => some text
  | _ => none

def Word.stray? : Word → Option String
  | .key text => some text
  | .unknown text => some text
  | .rest => some "--"
  | .switch _ _ _ => none

def Word.isSwitch (switch : Switch) : Word → Bool
  | .switch other _ _ => other = switch
  | _ => false

def Word.isAmongKeys : Word → Bool
  | .key _ => true
  | .rest => true
  | _ => false

/-- The arguments that some words make: the keys are those that stand together first. -/
def Arguments.ofWords (words : List Word) : Except UsageError Arguments :=
  let isOn := fun switch => words.any (·.isSwitch switch)
  let before := words.takeWhile (!·.isAmongKeys)
  let behind := words.dropWhile (!·.isAmongKeys)
  let keys := (behind.takeWhile (·.isAmongKeys)).filterMap Word.key?
  let strays :=
    before.filterMap Word.unknown? ++ (behind.dropWhile (·.isAmongKeys)).filterMap Word.stray?
  if keys.isEmpty then .error .missingKeys
  else if !strays.isEmpty then .error (.unrecognized strays)
  else if isOn .noColor && isOn .forceColor then .error .bothColors
  else .ok { keys, check := isOn .check, write := isOn .write }

/-- The arguments that some texts write. -/
def Arguments.parse (texts : List String) : Except UsageError Arguments := do
  let words ← readWords texts
  let words ← giveValues words
  Arguments.ofWords words

end ModAlmanac.Command
