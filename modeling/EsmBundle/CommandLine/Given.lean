import EsmBundle.CommandLine.Word
import EsmBundle.OptionValue

/-!
Taking the flags out of a command line.

Flags may stand anywhere before the separator. Taking them out records what they
say and leaves the other words, with a gap where a flag was. A flag that needs a
value and has none attached takes the next word, which has to be plain. Short
switches may share one word; all its letters are looked at before the first of
them acts. An attached value may be the separator and is void then.
-/

namespace EsmBundle

/-! ### What flags say -/

/-- What the flags of a command line say: the values of every repeatable flag in
order, the last value of the others, and which switches are there. -/
structure Given where
  entrypoints : List String
  external : List String
  replace : List String
  outputDir : Option OptionValue
  outputPath : Option OptionValue
  config : Option OptionValue
  deno : Option OptionValue
  minify : Bool
  noMinify : Bool
deriving DecidableEq, Repr

/-- No flag is given. -/
def Given.nothing : Given := ⟨[], [], [], none, none, none, none, false, false⟩

/-- Why a command line sets no options: it asks for help or for the version, a
flag lacks its value or has one that it does not take, or words are left over. -/
inductive Halt where
  | help
  | version
  | missingValue (flag : Flag)
  | ignoredValue (flag : Flag) (value : String)
  | unrecognized (words : List String)
deriving DecidableEq, Repr

namespace Given

/-- Records a flag with its value, or a switch. -/
def take (given : Given) (flag : Flag) (value : String) : Except Halt Given :=
  let value := OptionValue.ofWord value
  match flag with
  | .help => .error .help
  | .version => .error .version
  | .entrypoints => .ok { given with entrypoints := given.entrypoints ++ [value.display] }
  | .external => .ok { given with external := given.external ++ [value.display] }
  | .replace => .ok { given with replace := given.replace ++ [value.display] }
  | .outputDir => .ok { given with outputDir := some value }
  | .outputPath => .ok { given with outputPath := some value }
  | .config => .ok { given with config := some value }
  | .deno => .ok { given with deno := some value }
  | .minify => .ok { given with minify := true }
  | .noMinify => .ok { given with noMinify := true }

/-- Records switches. -/
def takeSwitches : Given → List Flag → Except Halt Given
  | given, [] => .ok given
  | given, flag :: rest => do takeSwitches (← given.take flag "") rest

end Given

/-! ### One word -/

/-- The flags of one word: switches, and at the end perhaps a flag with its value, or
without one that it needs. -/
structure FlagGroup where
  switches : List Flag
  last : Option (Flag × Option String)
deriving DecidableEq, Repr

namespace FlagGroup

/-- A flag with nothing attached. -/
def single (flag : Flag) : FlagGroup :=
  if flag.takesValue then ⟨[], some (flag, none)⟩ else ⟨[flag], none⟩

/-- A group with a switch in front. -/
def after (flag : Flag) (group : FlagGroup) : FlagGroup :=
  ⟨flag :: group.switches, group.last⟩

/-- The flags of a word whose first flag is a short spelling with a text attached. A switch lets
the next character be a flag of its own. -/
def ofLetters (flag : Flag) : List Char → Except Halt FlagGroup
  | [] =>
    if flag.takesValue then .ok ⟨[], some (flag, some "")⟩ else .error (.ignoredValue flag "")
  | letter :: rest =>
    if flag.takesValue then .ok ⟨[], some (flag, some (String.ofList (letter :: rest)))⟩
    else
      match Flag.ofLetter? letter with
      | none => .error (.ignoredValue flag (String.ofList (letter :: rest)))
      | some next =>
        if rest.isEmpty then .ok (after flag (single next))
        else (ofLetters next rest).map (after flag)

/-- The flags of a word. -/
def ofWord (flag : Flag) (short : Bool) : Option (List Char) → Except Halt FlagGroup
  | none => .ok (single flag)
  | some value =>
    if short then ofLetters flag value
    else if flag.takesValue then .ok ⟨[], some (flag, some (String.ofList value))⟩
    else .error (.ignoredValue flag (String.ofList value))

end FlagGroup

/-! ### The command line -/

/-- What is left of a word when the flags are taken out. -/
inductive Leftover where
  | plain (text : String)
  | unknown (text : String)
  | separator
  | gap
deriving DecidableEq, Repr

/-- Takes the flags out of the words, and records them over what is given already. -/
def takeFlags (given : Given) : List Word → Except Halt (Given × List Leftover)
  | [] => .ok (given, [])
  | .plain text :: rest => do
    let (given, left) ← takeFlags given rest
    return (given, .plain text :: left)
  | .unknown text :: rest => do
    let (given, left) ← takeFlags given rest
    return (given, .unknown text :: left)
  | .separator :: rest => do
    let (given, left) ← takeFlags given rest
    return (given, .separator :: left)
  | .flag flag short value :: rest => do
    let group ← FlagGroup.ofWord flag short value
    match group.last with
    | none =>
      let given ← given.takeSwitches group.switches
      let (given, left) ← takeFlags given rest
      return (given, .gap :: left)
    | some (last, some text) =>
      let given ← given.takeSwitches group.switches
      let given ← given.take last text
      let (given, left) ← takeFlags given rest
      return (given, .gap :: left)
    | some (last, none) =>
      match rest with
      | .plain text :: rest =>
        let given ← given.takeSwitches group.switches
        let given ← given.take last text
        let (given, left) ← takeFlags given rest
        return (given, .gap :: left)
      | _ => .error (.missingValue last)

end EsmBundle
