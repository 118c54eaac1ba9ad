import Argumentation.CommandLine.Word
import Argumentation.Decimal.Numeral

/-!
# Settings of a command

What the words behind a command say. `Command.read` goes through the words from left to right: an
option takes the value that is attached to it or the word behind it, the operand takes the first
word that is no option, and what neither takes is left over.
-/

namespace Argumentation.CommandLine

/-- What an option is given. -/
inductive Given where
  /-- Nothing: it is there. -/
  | mark
  | text (s : String)
  | whole (i : Int)

/-- What the words behind a command say. -/
structure Settings (κ : Type) where
  /-- The options, in the order of the words. -/
  options : List (κ × Given)
  /-- The words of the operand. -/
  operand : List String
  /-- The words that are left over. -/
  left : List String

/-- Why a command is not carried out. -/
inductive Halt where
  /-- Its use is shown instead. -/
  | help (usage : String)
  /-- It is misused. -/
  | misuse (name usage : String) (fault : Misuse)

namespace Settings

/-- Nothing is said. -/
def nothing {κ : Type} : Settings κ := ⟨[], [], []⟩

/-- Options before all others. -/
def withOptions {κ : Type} (options : List (κ × Given)) (s : Settings κ) : Settings κ :=
  { s with options := options ++ s.options }

/-- Words that are left over before all others. -/
def withLeft {κ : Type} (words : List String) (s : Settings κ) : Settings κ :=
  { s with left := words ++ s.left }

/-- Whether the option is there. -/
def has {κ : Type} [BEq κ] (key : κ) (s : Settings κ) : Bool := s.options.any fun o => o.1 == key

/-- What the option is given, where it is last. -/
def last? {κ : Type} [BEq κ] (key : κ) (s : Settings κ) : Option Given :=
  (s.options.reverse.find? fun o => o.1 == key).map (·.2)

/-- The text that the option is given. -/
def text? {κ : Type} [BEq κ] (key : κ) (s : Settings κ) : Option String :=
  match s.last? key with
  | some (.text text) => some text
  | _ => none

/-- The whole number that the option is given. -/
def whole? {κ : Type} [BEq κ] (key : κ) (s : Settings κ) : Option Int :=
  match s.last? key with
  | some (.whole i) => some i
  | _ => none

end Settings

/-- The whole number that a text writes. -/
def wholeOfText? (s : String) : Option Int :=
  match Decimal.wholeDigits? 10 s.toList with
  | some (negative, digits) =>
    if Decimal.digitLimit < digits.length then none else some (Decimal.signed 10 negative digits)
  | none => none

/-! ### Options -/

/-- The options of one word. -/
structure Group (κ : Type) where
  /-- The options that have what they need, each with its value. -/
  complete : List (CommandOption κ × String)
  /-- The last option, if its value is the next word. -/
  open? : Option (CommandOption κ)

/-- An option without an attached value. -/
def Group.alone {κ : Type} (o : CommandOption κ) : Group κ :=
  if o.role.takesValue then ⟨[], some o⟩ else ⟨[(o, "")], none⟩

/-- The group with another option before it. -/
def Group.behind {κ : Type} (o : CommandOption κ) (g : Group κ) : Group κ :=
  { g with complete := (o, "") :: g.complete }

/-- The options of a word that begins with `o` and goes on with the characters. Short options that
take no value may stand in one word; the last one may take the rest of the word. -/
def Group.read {κ : Type} (c : Command κ) (o : CommandOption κ) (short : Bool) :
    List Char → Except Misuse (Group κ)
  | [] => if o.role.takesValue then .ok ⟨[(o, "")], none⟩ else .error (.needlessValue o.title "")
  | letter :: rest =>
    if o.role.takesValue then .ok ⟨[(o, String.ofList (letter :: rest))], none⟩
    else if !short then .error (.needlessValue o.title (String.ofList (letter :: rest)))
    else match c.names.lookup (String.ofList ['-', letter]) with
      | none => .error (.needlessValue o.title (String.ofList (letter :: rest)))
      | some next =>
        if rest.isEmpty then .ok (.behind o (.alone next))
        else (Group.read c next true rest).map (.behind o)

/-- The options of a word that begins with `o`, to which characters may be attached. -/
def Group.ofWord {κ : Type} (c : Command κ) (o : CommandOption κ) (short : Bool) :
    Option (List Char) → Except Halt (Group κ)
  | none => .ok (.alone o)
  | some cs => (Group.read c o short cs).mapError (.misuse c.name c.usage)

/-- What an option is given, or why it cannot be. The word that ends the options is no value. -/
def take {κ : Type} (c : Command κ) (entry : CommandOption κ × String) :
    Except Halt (κ × Given) :=
  let (o, value) := entry
  match o.role with
  | .help => .error (.help c.usage)
  | .mark => .ok (o.key, .mark)
  | .text => .ok (o.key, if value = Word.separatorText then .mark else .text value)
  | .whole =>
    if value = Word.separatorText then .ok (o.key, .mark)
    else match wholeOfText? value with
      | some i => .ok (o.key, .whole i)
      | none => .error (.misuse c.name c.usage (.notWhole o.title value))

/-! ### All words -/

/-- Goes through the words. `wanted` tells whether the operand is still to come. -/
def walk {κ : Type} (c : Command κ) (wanted : Bool) : List (Word κ) → Except Halt (Settings κ)
  | [] => .ok .nothing
  | .known _ o short attached :: words =>
    match Group.ofWord c o short attached with
    | .error halt => .error halt
    | .ok group =>
      match group.open?, words with
      | none, words => do
        let options ← group.complete.mapM (take c)
        return (← walk c wanted words).withOptions options
      | some last, .plain value :: words => do
        let options ← (group.complete ++ [(last, value)]).mapM (take c)
        return (← walk c wanted words).withOptions options
      | some last, _ => .error (.misuse c.name c.usage (.noValue last.title))
  | .unknown text :: words => return (← walk c wanted words).withLeft [text]
  | word :: words =>
    match wanted, c.operand, word, words with
    | true, .rest _, .plain text, words => .ok ⟨[], text :: words.map Word.text, []⟩
    | true, .rest _, .separator, next :: words =>
      .ok ⟨[], Word.separatorText :: next.text :: words.map Word.text, []⟩
    | true, .one _, .plain text, .separator :: words =>
      return { (← walk c false words) with operand := [text] }
    | true, .one _, .plain text, words =>
      return { (← walk c false words) with operand := [text] }
    | true, .one _, .separator, .plain text :: words =>
      return { (← walk c false words) with operand := [text] }
    | _, _, word, words => return (← walk c wanted words).withLeft [word.text]

/-- What the words behind a command say. The words that the command asks for have to be there. -/
def Command.read {κ : Type} (c : Command κ) (texts : List String) : Except Halt (Settings κ) := do
  let words ← (Word.ofTexts c texts).mapError (.misuse c.name c.usage)
  let settings ← walk c true words
  match c.operand, settings.operand with
  | .one name, [] => throw (.misuse c.name c.usage (.missing name))
  | .rest name, [] => throw (.misuse c.name c.usage (.missing name))
  | _, _ => return settings

end Argumentation.CommandLine
