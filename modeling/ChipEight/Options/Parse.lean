import ChipEight.Options.Basic
import ChipEight.Text.Integer
import ChipEight.Text.Quoted

/-!
# ChipEight.Options.Parse

Reading a command line. Words that begin with a dash are options; a long one may be cut short as
long as it stays unique, any may carry its value after an equals sign, and a short one may carry it
right behind its letter. What a short switch carries is read as the letters of further short
options. A negative number and a word with a blank in it are no options, and after two dashes
nothing is. Two dashes that an option carries give it a blank.

* `Options.classify`: what a single word is. An option cut too short is an error before all others.
* `Options.Parser.unbundle`: the options that one word holds.
* `Options.Parser.consume`: takes the words in order.
* `Options.parse`: the whole command line.
-/

namespace ChipEight
namespace Options

/-- Why a command line gives no options. -/
inductive Fault where
  /-- The help was asked for. -/
  | help
  /-- The spelling of an option is that of several. -/
  | ambiguous (word : String) (names : List String)
  | expectedValue (flag : Flag)
  /-- A switch was given a value. -/
  | ignoredValue (flag : Flag) (value : String)
  | invalidInteger (flag : Flag) (value : String)
  /-- A value outside the choices, all as messages show them. -/
  | invalidChoice (flag : Flag) (value : String) (choices : List String)
  | missingFile
  | unrecognized (words : List String)
deriving DecidableEq, Repr

namespace Fault

/-- A message about one option. -/
def about (flag : Flag) (text : String) : String := "argument " ++ flag.title ++ ": " ++ text

/-- What a wrong command line is reported as. -/
def message : Fault → String
  | help => ""
  | ambiguous word names =>
    "ambiguous option: " ++ word ++ " could match " ++ ", ".intercalate names
  | expectedValue flag => about flag "expected one argument"
  | ignoredValue flag value => about flag ("ignored explicit argument " ++ Quoted.quote value)
  | invalidInteger flag value => about flag ("invalid int value: " ++ Quoted.quote value)
  | invalidChoice flag value choices =>
    about flag ("invalid choice: " ++ value ++ " (choose from " ++ ", ".intercalate choices ++ ")")
  | missingFile => "the following arguments are required: filename"
  | unrecognized words => "unrecognized arguments: " ++ " ".intercalate words

/-- The exit status that goes with a wrong command line; asking for help is not wrong. -/
def status : Fault → Nat
  | help => 0
  | _ => 2

end Fault

/-- What a word of the command line is. -/
inductive Word where
  /-- Two dashes. -/
  | dashes
  | plain (text : String)
  /-- An option under one of its spellings, perhaps with a text that it carries. -/
  | option (flag : Flag) (name : String) (carried : Option (List Char))
  /-- It looks like an option, but no option is spelt so. -/
  | unknown (text : String)
deriving DecidableEq, Repr

/-- A word cut at its first equals sign, if it has one. -/
def cutAtEquals (s : List Char) : List Char × Option (List Char) :=
  match s.dropWhile (· != '=') with
  | [] => (s, none)
  | _ :: value => (s.takeWhile (· != '='), some value)

/-- Whether a text is a negative number: a dash and digits, with a point before some of them or
none. One line break may follow. -/
def isNegativeNumber (s : List Char) : Bool :=
  let isDigit := fun c => (Digit.decimal? c).isSome
  match s with
  | '-' :: rest =>
    let body := if rest.getLast? == some '\n' then rest.dropLast else rest
    match body.dropWhile isDigit with
    | [] => !body.isEmpty
    | '.' :: fraction => !fraction.isEmpty && fraction.all isDigit
    | _ => false
  | _ => false

/-- The options that a word beginning with a dash may stand for, with the text that each carries. -/
def candidates (s : List Char) : List (Flag × String × Option (List Char)) :=
  match s with
  | '-' :: '-' :: _ =>
    let (name, carried) := cutAtEquals s
    Flag.spellings.filterMap fun (spelling, flag) =>
      if name.isPrefixOf spelling.toList then some (flag, spelling, carried) else none
  | d :: c :: rest =>
    Flag.spellings.filterMap fun (spelling, flag) =>
      if spelling.toList = [d, c] then some (flag, spelling, some rest) else none
  | _ => []

/-- A word that begins with a dash and is no spelling of an option. -/
def classifyDashed (word : String) : Except Fault Word :=
  match candidates word.toList with
  | [(flag, name, carried)] => .ok (.option flag name carried)
  | [] =>
    if isNegativeNumber word.toList || word.toList.contains ' ' then .ok (.plain word)
    else .ok (.unknown word)
  | several => .error (.ambiguous word (several.map fun (_, name, _) => name))

/-- What a word before two dashes is. -/
def classify (word : String) : Except Fault Word :=
  match word.toList with
  | '-' :: _ :: _ =>
    match Flag.named? word with
    | some flag => .ok (.option flag word none)
    | none =>
      let (name, carried) := cutAtEquals word.toList
      match carried, Flag.named? (String.ofList name) with
      | some text, some flag => .ok (.option flag (String.ofList name) (some text))
      | _, _ => classifyDashed word
  | _ => .ok (.plain word)

/-- What the words of a command line are. Everything after two dashes is plain. -/
def classifyAll : List String → Except Fault (List Word)
  | [] => .ok []
  | word :: rest =>
    if word = "--" then .ok (.dashes :: rest.map .plain)
    else
      match classify word with
      | .error f => .error f
      | .ok w => (classifyAll rest).map (w :: ·)

/-- The options so far, the file if there was one, and the words that fit nowhere. -/
structure Parser where
  options : Options
  file : Option String
  extras : List String

namespace Parser

/-- The options before the first word. -/
def start : Parser :=
  ⟨⟨"", .absent, .absent, .absent, .absent, .absent, .absent, .absent, .absent, false, false⟩,
    none, []⟩

/-- Adds a word that fits nowhere. -/
def addExtra (p : Parser) (word : String) : Parser := { p with extras := p.extras ++ [word] }

/-- The integer that a text is for an option. -/
def integer (flag : Flag) (text : String) : Except Fault Int :=
  match Numeral.decimal.read? text.toList with
  | some n => .ok n
  | none => .error (.invalidInteger flag text)

/-- The integer that a text is for an option, which has to be one of some. -/
def integerOf (flag : Flag) (choices : List Int) (text : String) : Except Fault Int :=
  match integer flag text with
  | .error f => .error f
  | .ok n =>
    if choices.contains n then .ok n
    else .error (.invalidChoice flag (toString n) (choices.map toString))

/-- A text for an option, which has to be one of some. -/
def textOf (flag : Flag) (choices : List String) (text : String) : Except Fault String :=
  if choices.contains text then .ok text
  else .error (.invalidChoice flag (Quoted.quote text) (choices.map Quoted.quote))

/-- What an option is given by a text: a value, or a blank by two dashes, which nothing checks. -/
def argument (read : String → Except Fault α) (text : String) : Except Fault (Argument α) :=
  if text = "--" then .ok .blank else (read text).map .value

/-- The options with an integer set. -/
def storeInteger (o : Options) (flag : Flag) (a : Argument Int) : Options :=
  match flag with
  | .clockSpeed => { o with clockSpeed := a }
  | .scale => { o with scale := a }
  | .mute => { o with mute := a }
  | _ => o

/-- The options with a text set. -/
def storeText (o : Options) (flag : Flag) (a : Argument String) : Options :=
  match flag with
  | .renderer => { o with renderer := a }
  | .layout => { o with layout := a }
  | .keymap => { o with keymap := a }
  | .foreground => { o with foreground := a }
  | .background => { o with background := a }
  | _ => o

/-- The options with what an option is given by a text. -/
def store (o : Options) (flag : Flag) (text : String) : Except Fault Options :=
  match flag.value with
  | .none => .ok o
  | .integer => (argument (integer flag) text).map (storeInteger o flag)
  | .integerOf choices => (argument (integerOf flag choices) text).map (storeInteger o flag)
  | .text => (argument .ok text).map (storeText o flag)
  | .textOf choices => (argument (textOf flag choices) text).map (storeText o flag)

/-- Takes a switch. -/
def takeSwitch (p : Parser) : Flag → Except Fault Parser
  | .help => .error .help
  | .skipUnknown => .ok { p with options := { p.options with skipUnknown := true } }
  | .debug => .ok { p with options := { p.options with debug := true } }
  | _ => .ok p

/-- Takes an option with its value. -/
def takeValue (p : Parser) (flag : Flag) (text : String) : Except Fault Parser :=
  (store p.options flag text).map fun options => { p with options }

/-- What a word with one or more options turned out to be: switches in order, and at the end perhaps
an option with its value, or an option that wants the next word. -/
structure Bundle where
  switches : List Flag
  last : Option (Flag × Option String)
deriving DecidableEq, Repr

/-- The bundle that an option without a text of its own ends. -/
def Bundle.closing (switches : List Flag) (flag : Flag) : Bundle :=
  if flag.isSwitch then ⟨switches ++ [flag], none⟩ else ⟨switches, some (flag, none)⟩

/-- Takes apart an option and the text that it carries. A switch in its short spelling passes the
text on, as the letters of further short options; any other switch refuses it. -/
def unbundle (flag : Flag) (short : Bool) (switches : List Flag) :
    List Char → Except Fault Bundle
  | [] =>
    if flag.isSwitch then .error (.ignoredValue flag "")
    else .ok ⟨switches, some (flag, some "")⟩
  | c :: rest =>
    if !flag.isSwitch then .ok ⟨switches, some (flag, some (String.ofList (c :: rest)))⟩
    else
      match short, Flag.named? (String.ofList ['-', c]) with
      | true, some next =>
        if rest.isEmpty then .ok (.closing (switches ++ [flag]) next)
        else unbundle next true (switches ++ [flag]) rest
      | _, _ => .error (.ignoredValue flag (String.ofList (c :: rest)))

/-- The options in a word that is one. -/
def bundle (flag : Flag) (name : String) : Option (List Char) → Except Fault Bundle
  | none => .ok (.closing [] flag)
  | some carried => unbundle flag (name.length == 2) [] carried

/-- Takes the switches of a word in order. -/
def takeSwitches (p : Parser) (flags : List Flag) : Except Fault Parser :=
  flags.foldlM takeSwitch p

/-- Takes a plain word: the file, if there is none yet. -/
def takePlain (p : Parser) (word : String) : Parser :=
  if p.file.isNone then { p with file := some word } else p.addExtra word

/-- Takes the words in order. Two dashes stand beside the file without trace; elsewhere they fit
nowhere. -/
def consume (p : Parser) : List Word → Except Fault Parser
  | [] => .ok p
  | .unknown word :: rest => consume (p.addExtra word) rest
  | .dashes :: .plain word :: rest =>
    if p.file.isNone then consume { p with file := some word } rest
    else consume ((p.addExtra "--").addExtra word) rest
  | .dashes :: rest => consume (p.addExtra "--") rest
  | .plain word :: .dashes :: rest =>
    if p.file.isNone then consume { p with file := some word } rest
    else consume ((p.addExtra word).addExtra "--") rest
  | .plain word :: rest => consume (p.takePlain word) rest
  | .option flag name carried :: rest =>
    match bundle flag name carried with
    | .error f => .error f
    | .ok ⟨switches, none⟩ =>
      match p.takeSwitches switches with
      | .error f => .error f
      | .ok p => consume p rest
    | .ok ⟨switches, some (last, some text)⟩ =>
      match (p.takeSwitches switches).bind (·.takeValue last text) with
      | .error f => .error f
      | .ok p => consume p rest
    | .ok ⟨switches, some (last, none)⟩ =>
      match rest with
      | .plain text :: rest =>
        match (p.takeSwitches switches).bind (·.takeValue last text) with
        | .error f => .error f
        | .ok p => consume p rest
      | _ => .error (.expectedValue last)

/-- The options when all words have been taken. -/
def finish (p : Parser) : Except Fault Options :=
  match p.file with
  | none => .error .missingFile
  | some filename =>
    if p.extras.isEmpty then .ok { p.options with filename } else .error (.unrecognized p.extras)

end Parser

/-- Reads a command line. -/
def parse (words : List String) : Except Fault Options :=
  match classifyAll words with
  | .error f => .error f
  | .ok ws =>
    match Parser.start.consume ws with
    | .error f => .error f
    | .ok p => p.finish

end Options
end ChipEight
