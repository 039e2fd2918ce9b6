import Noughts.CommandLine.Grammar
import Noughts.Setting
import Noughts.Text.Integer
import Noughts.Text.Quoted

/-!
# Reading a command line

Reading has two passes.  The first looks at each argument by itself and says whether it is a
switch (`classify`).

* A switch may be shortened to any beginning that fits only one name; one that fits several is
  refused.
* A value can follow a long name behind an equals sign, and a short one directly.
* A negative number is not a switch, and nothing with a space in it is one, unless it is known.
* Behind two dashes nothing is a switch any more.

The second pass goes through the arguments from left to right (`Reader.go`).  It gives switches
their values, takes the operand, and collects what nobody asked for.  Switches take effect in
order, so a request for help in front of an error is answered, and one behind it is not.  Short
switches without values can be run together in one argument, which is taken as a whole or refused.
Two dashes are never a value: a switch that has them attached to it is set, but to nothing.

A reading that fails says why: with a complaint, or because help was asked for.
-/

set_option autoImplicit false

namespace Noughts.CommandLine

/-- A value that was given. -/
inductive Value where
  | present
  | integer (n : Int)
  | text (s : String)
  /-- The place of a value, with none in it. -/
  | blank
  deriving DecidableEq, Repr

/-- Why reading ends early. -/
inductive Stop where
  /-- Help was asked for. -/
  | help (text : String)
  /-- The command line is refused. -/
  | refused (g : Grammar) (complaint : String)
  deriving Repr

/-- What has been read. -/
structure Reading where
  /-- The values given, in order, by the switch's key or the operand's name. -/
  given : List (String × Value) := []
  /-- The command, and the arguments behind it. -/
  command : Option (String × List String) := none
  /-- Arguments that nobody asked for. -/
  extras : List String := []
  deriving Repr

namespace Reading

/-- The last value that was given under a name. -/
def last? (r : Reading) (name : String) : Option Value :=
  (r.given.reverse.find? fun e => e.1 == name).map Prod.snd

/-- Was the switch given? -/
def has (r : Reading) (name : String) : Bool := (r.last? name).isSome

/-- What a switch that takes an integer was last set to. -/
def integer? (r : Reading) (name : String) : Option (Setting Int) :=
  match r.last? name with
  | some (.integer n) => some (.value n)
  | some .blank => some .blank
  | _ => none

/-- What a switch that takes a text was last set to. -/
def text? (r : Reading) (name : String) : Option (Setting String) :=
  match r.last? name with
  | some (.text s) => some (.value s)
  | some .blank => some .blank
  | _ => none

/-- The integer that was given for an operand. -/
def operand? (r : Reading) (name : String) : Option Int :=
  match r.last? name with
  | some (.integer n) => some n
  | _ => none

end Reading

/-! ## The first pass -/

/-- A switch that an argument names. -/
structure Hit where
  switch : Switch
  /-- The name in full. -/
  name : String
  /-- The text that stands behind the name in the same argument. -/
  attached : Option String := none
  deriving Repr

/-- An argument after the first pass. -/
inductive Token where
  | plain (argument : String)
  /-- Two dashes. -/
  | dashes
  /-- What looks like a switch, with the switch if there is one. -/
  | switch (argument : String) (hit : Option Hit)
  deriving Repr

/-- The argument as it was given. -/
def Token.argument : Token → String
  | .plain s => s
  | .dashes => "--"
  | .switch s _ => s

/-- Splits at the first equals sign. -/
def splitEquals (cs : List Char) : String × Option String :=
  let name := cs.takeWhile fun c => c != '='
  match cs.dropWhile fun c => c != '=' with
  | [] => (String.ofList name, none)
  | _ :: value => (String.ofList name, some (String.ofList value))

/-- Is the text behind a dash that of a negative number?  A line feed at its end does no harm. -/
def looksNumeric (cs : List Char) : Bool :=
  let body := if cs.getLast? = some '\n' then cs.dropLast else cs
  match body.dropWhile Text.isDigit with
  | [] => !body.isEmpty
  | '.' :: places => !places.isEmpty && places.all Text.isDigit
  | _ => false

/-- Does one name begin with another text? -/
def begins (text name : String) : Bool := text.toList.isPrefixOf name.toList

/-- The switches that a shortened argument can mean. -/
def Grammar.completions (g : Grammar) (argument : String) : List Hit :=
  match argument.toList with
  | '-' :: '-' :: _ =>
    let (start, attached) := splitEquals argument.toList
    (g.table.filter fun e => begins start e.1).map fun e => ⟨e.2, e.1, attached⟩
  | '-' :: c :: rest =>
    g.table.filterMap fun e =>
      if e.1 = String.ofList ['-', c] then some ⟨e.2, e.1, some (String.ofList rest)⟩
      else if begins argument e.1 then some ⟨e.2, e.1, none⟩
      else none
  | _ => []

/-- The kind of an argument, or a complaint about it. -/
def Grammar.classify (g : Grammar) (argument : String) : Except String Token :=
  match argument.toList with
  | '-' :: tail =>
    match g.switch? argument with
    | some s => .ok (.switch argument (some ⟨s, argument, none⟩))
    | none =>
      if tail.isEmpty then .ok (.plain argument)
      else
        let (start, attached) := splitEquals argument.toList
        match attached, g.switch? start with
        | some value, some s => .ok (.switch argument (some ⟨s, start, some value⟩))
        | _, _ =>
          match g.completions argument with
          | [hit] => .ok (.switch argument (some hit))
          | [] =>
            if looksNumeric tail || tail.contains ' ' then .ok (.plain argument)
            else .ok (.switch argument none)
          | hits =>
            .error ("ambiguous option: " ++ argument ++ " could match "
              ++ ", ".intercalate (hits.map Hit.name))
  | _ => .ok (.plain argument)

/-- The first pass. -/
def Grammar.tokens (g : Grammar) : List String → Except Stop (List Token)
  | [] => .ok []
  | argument :: rest =>
    if argument = "--" then .ok (.dashes :: rest.map .plain)
    else
      match g.classify argument with
      | .error complaint => .error (.refused g complaint)
      | .ok token =>
        match g.tokens rest with
        | .error e => .error e
        | .ok ts => .ok (token :: ts)

/-! ## The second pass -/

namespace Reader

/-- A complaint about one switch or operand. -/
def refuse {α : Type} (g : Grammar) (label complaint : String) : Except Stop α :=
  .error (.refused g ("argument " ++ label ++ ": " ++ complaint))

/-- The choices as they are shown in a complaint. -/
def choices (among : List String) : String :=
  " (choose from " ++ ", ".intercalate (among.map Text.quoted) ++ ")"

/-- Records a value. -/
def record (r : Reading) (name : String) (v : Value) : Reading :=
  { r with given := r.given ++ [(name, v)] }

/-- Records an integer. -/
def recordInteger (g : Grammar) (r : Reading) (name label argument : String) :
    Except Stop Reading :=
  match Text.integer? argument with
  | some n => .ok (record r name (.integer n))
  | none => refuse g label ("invalid int value: " ++ Text.quoted argument)

/-- Lets a switch without a value take effect. -/
def take (g : Grammar) (r : Reading) (s : Switch) : Except Stop Reading :=
  match s.kind with
  | .help => .error (.help g.description)
  | _ => .ok (record r s.key .present)

/-- Gives a switch its value, unless there are two dashes in its place. -/
def takeValue (g : Grammar) (r : Reading) (s : Switch) (argument : String) :
    Except Stop Reading :=
  if s.kind.takesValue && argument = "--" then .ok (record r s.key .blank)
  else match s.kind with
  | .integer => recordInteger g r s.key s.label argument
  | .choice among =>
    if among.contains argument then .ok (record r s.key (.text argument))
    else refuse g s.label ("invalid choice: " ++ Text.quoted argument ++ choices among)
  | .text => .ok (record r s.key (.text argument))
  | .help => take g r s
  | .flag => take g r s

/-- What is left to do for an argument that names one switch or several. -/
structure Cluster where
  /-- Switches without a value, in order. -/
  flags : List Switch := []
  /-- A switch with the value it is given. -/
  valued : Option (Switch × String) := none
  /-- A switch whose value is still to come. -/
  waiting : Option Switch := none

/-- The end of a cluster: its last switch with the text attached to it, which only a switch that
takes a value can have. -/
def closed (g : Grammar) (s : Switch) (before : List Switch) (attached : List Char) :
    Except Stop Cluster :=
  if s.kind.takesValue then .ok { flags := before, valued := some (s, String.ofList attached) }
  else refuse g s.label ("ignored explicit argument " ++ Text.quoted (String.ofList attached))

/-- The end of a cluster: its last switch with nothing attached to it. -/
def bare (s : Switch) (before : List Switch) : Cluster :=
  if s.kind.takesValue then { flags := before, waiting := some s } else { flags := before ++ [s] }

/-- Takes a short switch and the text attached to it apart.  One that takes no value can be
followed by the letters of others; an equals sign is a letter like any other here. -/
def unfold (g : Grammar) (s : Switch) (before : List Switch) :
    List Char → Except Stop Cluster
  | [] => closed g s before []
  | c :: rest =>
    if s.kind.takesValue then closed g s before (c :: rest)
    else
      match g.switch? (String.ofList ['-', c]) with
      | none => closed g s before (c :: rest)
      | some next =>
        if rest = [] then .ok (bare next (before ++ [s]))
        else unfold g next (before ++ [s]) rest

/-- The work that an argument asks for. -/
def clusterOf (g : Grammar) (hit : Hit) : Except Stop Cluster :=
  match hit.attached with
  | none => .ok (bare hit.switch [])
  | some text =>
    if begins "--" hit.name then closed g hit.switch [] text.toList
    else unfold g hit.switch [] text.toList

/-- What the second pass expects next. -/
inductive Expectation where
  /-- Nothing in particular. -/
  | anything
  /-- The value of a switch. -/
  | value (s : Switch)
  /-- Two dashes, which belong to the operand before them. -/
  | trailingDashes
  /-- The operand, after two dashes. -/
  | operand

/-- Adds an argument that nobody asked for. -/
def extra (r : Reading) (argument : String) : Reading :=
  { r with extras := r.extras ++ [argument] }

/-- Takes the command and all that is behind it. -/
def takeCommand (g : Grammar) (r : Reading) (label : String) (among : List String)
    (name : String) (rest : List Token) : Except Stop Reading :=
  if among.contains name then .ok { r with command := some (name, rest.map Token.argument) }
  else refuse g label ("invalid choice: " ++ Text.quoted name ++ choices among)

/-- The second pass.  `pending` says that the operand has not been taken yet. -/
def go (g : Grammar) (pending : Bool) (e : Expectation) (r : Reading) :
    List Token → Except Stop Reading
  | [] =>
    match e with
    | .value s => refuse g s.label "expected one argument"
    | _ => .ok r
  | token :: rest =>
    match e, token with
    | .value s, .plain argument => do go g pending .anything (← takeValue g r s argument) rest
    | .value s, _ => refuse g s.label "expected one argument"
    | .trailingDashes, .dashes => go g false .anything r rest
    | _, .plain argument =>
      if pending then
        match g.operand with
        | .nothing => go g pending .anything (extra r argument) rest
        | .integer name => do
          go g false .trailingDashes (← recordInteger g r name name argument) rest
        | .command label among => takeCommand g r label among argument rest
      else go g pending .anything (extra r argument) rest
    | _, .dashes =>
      if pending then
        match g.operand with
        | .nothing => go g pending .anything (extra r "--") rest
        | .integer _ => go g pending .operand r rest
        | .command label among =>
          if rest.isEmpty then .ok (extra r "--") else takeCommand g r label among "--" rest
      else go g pending .anything (extra r "--") rest
    | _, .switch argument none => go g pending .anything (extra r argument) rest
    | _, .switch _ (some hit) => do
      let cluster ← clusterOf g hit
      let r ← cluster.flags.foldlM (take g) r
      let r ← match cluster.valued with
        | some (s, text) => takeValue g r s text
        | none => .ok r
      go g pending (match cluster.waiting with | some s => .value s | none => .anything) r rest

end Reader

/-- Reads the arguments of one command line. -/
def Grammar.read (g : Grammar) (arguments : List String) : Except Stop Reading := do
  let r ← Reader.go g true .anything {} (← g.tokens arguments)
  match g.switches.filter fun s => s.required && !r.has s.key with
  | [] => .ok r
  | missing =>
    .error (.refused g ("the following arguments are required: "
      ++ ", ".intercalate (missing.map Switch.label)))

/-- Refuses a reading with arguments that nobody asked for. -/
def Grammar.settle (g : Grammar) (r : Reading) : Except Stop Reading :=
  if r.extras.isEmpty then .ok r
  else .error (.refused g ("unrecognized arguments: " ++ " ".intercalate r.extras))

/-- What a program prints when reading ends early: text on its output, text among its messages,
and its exit status. -/
def Stop.printed : Stop → String × String × Nat
  | .help text => (text, "", 0)
  | .refused g complaint => ("", g.usage ++ g.program ++ ": error: " ++ complaint ++ "\n", 2)

end Noughts.CommandLine
