import Argumentation.Text.Quoted

/-!
# Options of a command

What a command knows of the words behind it: the options with their names, and the words that
are no options. `Misuse` says what can be wrong with the words.
-/

namespace Argumentation.CommandLine

/-- What an option stands for. -/
inductive Role where
  /-- The use of the command is shown, and nothing else is done. -/
  | help
  /-- The option says something by being there. -/
  | mark
  /-- A text follows. -/
  | text
  /-- A whole number follows. -/
  | whole
  deriving DecidableEq, Repr

/-- Whether something follows an option. -/
def Role.takesValue : Role → Bool
  | .help => false
  | .mark => false
  | .text => true
  | .whole => true

/-- An option of a command. The `key` tells it from the other options. -/
structure CommandOption (κ : Type) where
  key : κ
  names : List String
  role : Role

/-- The name of the option in messages. -/
def CommandOption.title {κ : Type} (o : CommandOption κ) : String := "/".intercalate o.names

/-- The words besides options that a command asks for. -/
inductive Operand where
  | none
  /-- One word. -/
  | one (name : String)
  /-- A word and all words behind it, options or not. -/
  | rest (name : String)

/-- A command. -/
structure Command (κ : Type) where
  /-- What the command is called by. -/
  name : String
  /-- How the command is used. -/
  usage : String
  options : List (CommandOption κ)
  operand : Operand

/-- The names of the options, each with its option. -/
def Command.names {κ : Type} (c : Command κ) : List (String × CommandOption κ) :=
  c.options.flatMap fun o => o.names.map fun name => (name, o)

/-- What is wrong with the words behind a command. -/
inductive Misuse where
  /-- A word shortens the names of several options. -/
  | ambiguous (word : String) (candidates : List String)
  /-- Nothing follows an option that takes a value. -/
  | noValue (option : String)
  /-- An option that stands alone is given a value. -/
  | needlessValue (option value : String)
  /-- An option that takes a whole number is given something else. -/
  | notWhole (option value : String)
  /-- A word is not one of those that the command can be given. -/
  | notAmong (operand word : String) (choices : List String)
  /-- A word that the command asks for is not there. -/
  | missing (operand : String)
  /-- Words are left over. -/
  | unrecognized (words : List String)
  deriving DecidableEq, Repr

/-- The words for the misuse. -/
def Misuse.message : Misuse → String
  | .ambiguous word candidates =>
    "ambiguous option: " ++ word ++ " could match " ++ ", ".intercalate candidates
  | .noValue option => "argument " ++ option ++ ": expected one argument"
  | .needlessValue option value =>
    "argument " ++ option ++ ": ignored explicit argument " ++ Text.quoted value
  | .notWhole option value =>
    "argument " ++ option ++ ": invalid int value: " ++ Text.quoted value
  | .notAmong operand word choices =>
    "argument " ++ operand ++ ": invalid choice: " ++ Text.quoted word ++ " (choose from " ++
      ", ".intercalate (choices.map Text.quoted) ++ ")"
  | .missing operand => "the following arguments are required: " ++ operand
  | .unrecognized words => "unrecognized arguments: " ++ " ".intercalate words

end Argumentation.CommandLine
