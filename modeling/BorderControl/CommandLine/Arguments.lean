/-!
# Arguments

A command line names one of four commands and what it works on. Three options belong to
every command and may stand before or after its name; where one is given on both sides,
the one after the name counts. An option that takes a value has it after an equals sign
or as the next argument, and is given once on each side. After `--` no argument is an
option (`Invocation.ofArguments`).
-/

namespace BorderControl

inductive Format where
  | text
  | json
deriving DecidableEq, Repr

/-- What a command line asks for. -/
inductive Command where
  | derive (dossier : String)
  | link (dossier : String)
  | compare (a b : String)
  | sync (store mrn : String) (save : Bool)
deriving DecidableEq, Repr

structure Options where
  format : Format
  quiet : Bool
  settings : Option String
deriving DecidableEq, Repr

inductive Invocation where
  | help
  | version
  | misuse
  | run (o : Options) (c : Command)
deriving DecidableEq, Repr

namespace Arguments

/-- The options met on one side of the command's name. -/
structure Flags where
  format : Option Format
  quiet : Bool
  settings : Option String
  save : Bool
deriving DecidableEq, Repr

def Flags.none : Flags := ⟨.none, false, .none, false⟩

inductive Verb where
  | derive
  | link
  | compare
  | sync
deriving DecidableEq, Repr

namespace Verb

def ofName? : String → Option Verb
  | "derive" => some derive
  | "match" => some link
  | "compare" => some compare
  | "sync" => some sync
  | _ => none

/-- The command on the arguments that are no options. A path must not be empty. -/
def command? (v : Verb) (save : Bool) (operands : List String) : Option Command :=
  match v, operands with
  | derive, [dossier] => some (.derive dossier)
  | link, [dossier] => some (.link dossier)
  | compare, [a, b] => some (.compare a b)
  | sync, [store, mrn] => some (.sync store mrn save)
  | _, _ => none

/-- The next operand is allowed after `count` others: there is room for it, and if it is
a path it is not empty. -/
def allows (v : Verb) (count : Nat) (operand : String) : Bool :=
  match v, count with
  | derive, 0 | link, 0 | compare, 0 | compare, 1 | sync, 0 => operand ≠ ""
  | sync, 1 => true
  | _, _ => false

end Verb

/-! ## Tokens -/

/-- What the arguments say, one by one. -/
inductive Token where
  | operand (s : String)
  /-- After this no argument is an option. -/
  | separator
  | format (f : Format)
  | settings (path : String)
  | quiet
  | save
  | help
  | version
  /-- An argument that has no meaning anywhere. -/
  | meaningless
deriving DecidableEq, Repr

/-- The argument does not look like an option; a single dash does not. -/
def isOperand (arg : String) : Bool :=
  match arg.toList with
  | '-' :: _ :: _ => false
  | _ => true

/-- An option that takes a value, with its value. -/
def valued (name : List Char) (value : String) : Token :=
  match String.ofList name, value with
  | "output", "text" => .format .text
  | "output", "json" => .format .json
  | "config", path => if path = "" then .meaningless else .settings path
  | _, _ => .meaningless

/-- An option without a value. -/
def bare (name : List Char) : Token :=
  match String.ofList name with
  | "quiet" => .quiet
  | "write" => .save
  | "help" => .help
  | "version" => .version
  | _ => .meaningless

def takesValue (name : List Char) : Bool :=
  String.ofList name == "output" || String.ofList name == "config"

/-- Letters after one dash; the first one decides. -/
def short : Char → Token
  | 'h' => .help
  | 'V' => .version
  | _ => .meaningless

def tokens : List String → List Token
  | [] => []
  | arg :: rest =>
    match arg.toList with
    | ['-', '-'] => .separator :: rest.map .operand
    | '-' :: '-' :: name =>
      match name.dropWhile (· ≠ '=') with
      | _ :: value => valued (name.takeWhile (· ≠ '=')) (String.ofList value) :: tokens rest
      | [] =>
        if takesValue name then
          match rest with
          | [] => [.meaningless]
          | value :: rest =>
            if isOperand value then valued name value :: tokens rest else [.meaningless]
        else bare name :: tokens rest
    | '-' :: c :: _ => short c :: tokens rest
    | _ => .operand arg :: tokens rest

/-! ## Meaning -/

/-- Takes in an option that belongs to every command, which is given once at most. -/
def shared? (flags : Flags) : Token → Option Flags
  | .format f => if flags.format.isSome then .none else some { flags with format := some f }
  | .settings path =>
    if flags.settings.isSome then .none else some { flags with settings := some path }
  | .quiet => if flags.quiet then .none else some { flags with quiet := true }
  | _ => .none

/-- The options on both sides of the command's name; those after it count more. -/
def options (outer inner : Flags) : Options where
  format := (inner.format.or outer.format).getD .text
  quiet := inner.quiet || outer.quiet
  settings := inner.settings.or outer.settings

/-- What follows the name of a command. -/
def afterVerb (v : Verb) (outer : Flags) : Flags → List String → List Token → Invocation
  | inner, operands, [] =>
    match v.command? inner.save operands with
    | some c => .run (options outer inner) c
    | none => .misuse
  | inner, operands, token :: rest =>
    match token with
    | .operand s =>
      if v.allows operands.length s then afterVerb v outer inner (operands ++ [s]) rest
      else .misuse
    | .separator => afterVerb v outer inner operands rest
    | .help => .help
    | .save =>
      if v = .sync && !inner.save then
        afterVerb v outer { inner with save := true } operands rest
      else .misuse
    | token =>
      match shared? inner token with
      | some inner => afterVerb v outer inner operands rest
      | none => .misuse

/-- Asks for help on one of the commands, or on all. -/
def helpOn : List Token → Invocation
  | [] => .help
  | [.operand name] => if (Verb.ofName? name).isSome || name = "help" then .help else .misuse
  | _ => .misuse

/-- What stands before the name of the command, and the name. -/
def beforeVerb : Flags → List Token → Invocation
  | _, [] => .misuse
  | outer, token :: rest =>
    match token with
    | .operand s =>
      match Verb.ofName? s with
      | some v => afterVerb v outer .none [] rest
      | none => if s = "help" then helpOn rest else .misuse
    | .help => .help
    | .version => .version
    | token =>
      match shared? outer token with
      | some outer => beforeVerb outer rest
      | none => .misuse

end Arguments

def Invocation.ofArguments (args : List String) : Invocation :=
  Arguments.beforeVerb .none (Arguments.tokens args)

end BorderControl
