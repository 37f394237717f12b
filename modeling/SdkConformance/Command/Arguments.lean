import SdkConformance.Sdk.Range
import SdkConformance.Text.Digits

/-!
# Arguments of the command line

The program has three commands. Flags may stand before and behind the name of a command, once in
each place; options with a value and operands stand behind it. Arguments are read one after the
other, and the first that cannot be used, or that asks for help, decides.

* `Arguments.parse`: the invocation that arguments ask for, or why there is none.
-/

namespace SdkConformance.Command

/-! ## 1. Requests -/

/-- What the program is asked to do. -/
inductive Request where
  /-- Check a manifest against the versions of a properties file. -/
  | check (sdks manifest : String)
  /-- List the methods of a class of a version. -/
  | methods (sdks : String) (version : UInt32) (className : String)
  /-- List the versions in a range. -/
  | versions (sdks : String) (range : SdkRange)
  deriving DecidableEq, Repr

/-- A request and the form of its answer. -/
structure Invocation where
  /-- Whether the answer is to be JSON. -/
  isJson : Bool
  request : Request
  deriving DecidableEq, Repr

/-- The commands. -/
inductive Verb where
  | check
  | methods
  | versions
  deriving DecidableEq, Repr

/-- What help is about. -/
inductive HelpTopic where
  | program
  | verb (v : Verb)
  | help
  deriving DecidableEq, Repr

/-- Why arguments do not lead to an invocation. -/
inductive Stop where
  /-- They cannot be understood. -/
  | misuse
  /-- They ask for help. -/
  | help (topic : HelpTopic)
  /-- They ask for the version of the program. -/
  | version
  deriving DecidableEq, Repr

namespace Arguments

/-! ## 2. What a command takes -/

/-- The values that an option or an operand takes. -/
inductive ValueKind where
  /-- A path, which is not empty. -/
  | path
  /-- The number of a version. -/
  | version
  | any
  deriving DecidableEq, Repr

/-- The number of a version: decimal, with an optional sign, of 32 bits. -/
def version? (value : String) : Option UInt32 :=
  let number? (negative : Bool) (ds : List Char) : Option UInt32 :=
    match Digits.decimal? ds with
    | some n => if n < UInt32.size ∧ (negative → n = 0) then some (UInt32.ofNat n) else none
    | none => none
  match value.toList with
  | '+' :: ds => number? false ds
  | '-' :: ds => number? true ds
  | ds => number? false ds

/-- Whether a value is one of its kind. -/
def ValueKind.accepts : ValueKind → String → Bool
  | .path, value => value != ""
  | .version, value => (version? value).isSome
  | .any, _ => true

/-- The command of a name. -/
def verb? (name : String) : Option Verb :=
  if name = "check" then some .check
  else if name = "methods" then some .methods
  else if name = "versions" then some .versions
  else none

/-- The options with a value. -/
def options : Verb → List (String × ValueKind)
  | .check => [("sdks", .path)]
  | .methods => [("sdks", .path), ("sdk", .version)]
  | .versions => [("sdks", .path), ("min", .version), ("max", .version)]

/-- The operand, which is required. -/
def operand? : Verb → Option ValueKind
  | .check => some .path
  | .methods => some .any
  | .versions => none

/-! ## 3. Flags -/

/-- The options without a value. -/
inductive Flag where
  | json
  | verbose
  | help
  | version
  deriving DecidableEq, Repr

/-- The flag of a long name. Only the program as a whole has a version. -/
def Flag.ofName? (verb : Option Verb) (name : String) : Option Flag :=
  if name = "json" then some .json
  else if name = "verbose" then some .verbose
  else if name = "help" then some .help
  else if name = "version" ∧ verb = none then some .version
  else none

/-- The flag of a letter. -/
def Flag.ofLetter? (verb : Option Verb) (letter : Char) : Option Flag :=
  if letter = 'v' then some .verbose
  else if letter = 'h' then some .help
  else if letter = 'V' ∧ verb = none then some .version
  else none

/-! ## 4. Reading -/

/-- What was read so far before or behind the name of a command. -/
structure Collected where
  json : Bool := false
  verbose : Bool := false
  /-- The values by the names of their options. -/
  values : List (String × String) := []
  operand : Option String := none
  deriving DecidableEq, Repr

/-- Takes a flag. -/
def Collected.addFlag (s : Collected) (verb : Option Verb) : Flag → Except Stop Collected
  | .json => if s.json then .error .misuse else .ok { s with json := true }
  | .verbose => if s.verbose then .error .misuse else .ok { s with verbose := true }
  | .help => .error (.help (match verb with | some v => .verb v | none => .program))
  | .version => .error .version

/-- Takes flags that are given by their letters. -/
def Collected.addLetters (s : Collected) (verb : Option Verb) (letters : List Char) :
    Except Stop Collected :=
  letters.foldlM (fun s letter =>
    match Flag.ofLetter? verb letter with
    | some flag => s.addFlag verb flag
    | none => .error .misuse) s

/-- Takes the value of an option. -/
def Collected.addValue (s : Collected) (name : String) (kind : ValueKind) (value : String) :
    Except Stop Collected :=
  if kind.accepts value && !(s.values.any (·.1 == name)) then
    .ok { s with values := (name, value) :: s.values }
  else .error .misuse

/-- Takes an operand. -/
def Collected.addOperand (s : Collected) (verb : Verb) (value : String) : Except Stop Collected :=
  match operand? verb, s.operand with
  | some kind, none =>
    if kind.accepts value then .ok { s with operand := some value } else .error .misuse
  | _, _ => .error .misuse

/-- The name of a long option, and the value behind an equals sign. -/
def long? (argument : String) : Option (String × Option String) :=
  match argument.toList with
  | '-' :: '-' :: cs =>
    let name := String.ofList (cs.takeWhile (· != '='))
    match cs.dropWhile (· != '=') with
    | [] => some (name, none)
    | _ :: value => some (name, some (String.ofList value))
  | _ => none

/-- The letters behind a dash. -/
def letters? (argument : String) : Option (List Char) :=
  match argument.toList with
  | '-' :: c :: cs => some (c :: cs)
  | _ => none

/-- Reads what stands behind the name of a command. Behind two dashes there are only operands. -/
def collect (verb : Verb) (onlyOperands : Bool) (s : Collected) :
    List String → Except Stop Collected
  | [] => .ok s
  | a :: as =>
    if onlyOperands then
      match s.addOperand verb a with
      | .error stop => .error stop
      | .ok s => collect verb true s as
    else if a = "--" then collect verb true s as
    else
      match long? a with
      | some (name, value) =>
        match Flag.ofName? verb name, value with
        | some flag, none =>
          match s.addFlag verb flag with
          | .error stop => .error stop
          | .ok s => collect verb false s as
        | some _, some _ => .error .misuse
        | none, _ =>
          match (options verb).find? (·.1 == name), value with
          | none, _ => .error .misuse
          | some (name, kind), some value =>
            match s.addValue name kind value with
            | .error stop => .error stop
            | .ok s => collect verb false s as
          | some (name, kind), none =>
            match as with
            | [] => .error .misuse
            | value :: as =>
              if (letters? value).isSome then .error .misuse
              else
                match s.addValue name kind value with
                | .error stop => .error stop
                | .ok s => collect verb false s as
      | none =>
        let added := match letters? a with
          | some letters => s.addLetters verb letters
          | none => s.addOperand verb a
        match added with
        | .error stop => .error stop
        | .ok s => collect verb false s as

/-! ## 5. Invocations -/

/-- The request of a command, if nothing that it requires is missing. -/
def request? (verb : Verb) (s : Collected) : Option Request := do
  let value? (name : String) : Option String := (s.values.find? (·.1 == name)).map (·.2)
  let sdks ← value? "sdks"
  match verb with
  | .check => return .check sdks (← s.operand)
  | .methods => return .methods sdks (← (← value? "sdk") |> version?) (← s.operand)
  | .versions =>
    return .versions sdks ⟨(value? "min").bind version?, (value? "max").bind version?⟩

/-- What the names behind the word help ask for. -/
def helpFor : List String → Stop
  | [] => .help .program
  | [name] =>
    match verb? name with
    | some v => .help (.verb v)
    | none => if name = "help" then .help .help else .misuse
  | _ => .misuse

/-- Reads flags up to the name of a command, and the rest for that command. -/
def parseFrom (s : Collected) : List String → Except Stop Invocation
  | [] => .error .misuse
  | a :: as =>
    match verb? a with
    | some verb =>
      match collect verb false {} as with
      | .error stop => .error stop
      | .ok t =>
        match request? verb t with
        | some request => .ok ⟨s.json || t.json, request⟩
        | none => .error .misuse
    | none =>
      if a = "help" then .error (helpFor as)
      else
        let added := match long? a with
          | some (name, none) =>
            match Flag.ofName? none name with
            | some flag => s.addFlag none flag
            | none => .error .misuse
          | some (_, some _) => .error .misuse
          | none =>
            match letters? a with
            | some letters => s.addLetters none letters
            | none => .error .misuse
        match added with
        | .error stop => .error stop
        | .ok s => parseFrom s as

/-- The invocation that arguments ask for. -/
def parse (arguments : List String) : Except Stop Invocation := parseFrom {} arguments

end Arguments

end SdkConformance.Command
