import Herald.Settings.Basic
import Herald.Text.Cut

/-!
The command line. Arguments are read from left to right; the value of an item is looked at when the
next item begins or the line ends. What the command line does not choose is chosen by the environment.
-/

namespace Herald.Settings

def Usage.message : Usage → String
  | .badValue item => s!"missing or invalid value for --{item.name}"
  | .unreadableValue item => s!"unreadable value for --{item.name}"
  | .repeated item => s!"--{item.name} cannot be used multiple times"
  | .unwantedValue name => s!"--{name} takes no value"
  | .unknown argument => s!"unexpected argument {argument}"
  | .help => "help"
  | .version => "version"

def helpText : String :=
  "\n".intercalate ("Options:" :: Item.all.map fun item =>
    s!"  --{item.name}" ++ if item.isFlag then "" else " <VALUE>")

structure Reading where
  settings : Settings
  given : List Item
  pending : Option (Item × Option String)

namespace Reading

def start : Reading :=
  ⟨.standard, [], none⟩

def set (r : Reading) (item : Item) (value : String) : Except Usage Reading :=
  if r.given.contains item then .error (.repeated item)
  else do .ok ⟨← r.settings.assign item value, item :: r.given, none⟩

def settle (r : Reading) : Except Usage Reading :=
  match r.pending with
  | none => .ok r
  | some (item, none) => .error (.badValue item)
  | some (item, some value) => r.set item value

def named (r : Reading) (argument name : String) (value : Option String) : Except Usage Reading :=
  match name, Item.ofName name, value with
  | "help", _, none => do
    let _ ← r.settle
    .error .help
  | "version", _, none => do
    let _ ← r.settle
    .error .version
  | _, none, value =>
    if value.isSome && (name == "help" || name == "version") then .error (.unwantedValue name)
    else .error (.unknown argument)
  | _, some item, none => do
    let r ← r.settle
    if item.isFlag then r.set item "true" else .ok { r with pending := some (item, none) }
  | _, some item, some value =>
    if item.isFlag then .error (.unwantedValue name)
    else do (← r.settle).set item value

def lettered (r : Reading) (argument : String) : Char → Except Usage Reading
  | 'h' => do
    let _ ← r.settle
    .error .help
  | 'V' => do
    let _ ← r.settle
    .error .version
  | _ => .error (.unknown argument)

def plain (r : Reading) (argument : String) : Except Usage Reading :=
  match r.pending with
  | some (item, none) => .ok { r with pending := some (item, some argument) }
  | _ => .error (.unknown argument)

def step (r : Reading) (argument : String) : Except Usage Reading :=
  match argument.toList with
  | '-' :: '-' :: rest =>
    match Text.cutList '=' rest with
    | some (name, value) => r.named argument (String.ofList name) (some (String.ofList value))
    | none => r.named argument (String.ofList rest) none
  | '-' :: letter :: _ => r.lettered argument letter
  | _ => r.plain argument

/-- Reads all arguments. After two dashes there are no more items, so nothing may follow. -/
def arguments (r : Reading) : List String → Except Usage Reading
  | [] => r.settle
  | ["--"] => r.settle
  | "--" :: argument :: _ => .error (.unknown argument)
  | argument :: rest => do arguments (← r.step argument) rest

/-- Sets an item to what the environment says, unless it has been set. -/
def consult (scope : String) (environment : List (String × String)) (r : Reading) (item : Item) :
    Except Usage Reading :=
  if r.given.contains item then .ok r
  else
    match item.environmentName.bind fun name => environment.lookup (scope ++ name) with
    | some value => r.set item value
    | none => .ok r

end Reading

/-- The settings that a command line and an environment choose. The names of environment variables
begin with `scope`. -/
def parse (scope : String) (environment : List (String × String)) (arguments : List String) :
    Except Usage Settings := do
  let r ← Reading.start.arguments arguments
  let r ← Item.all.foldlM (Reading.consult scope environment) r
  .ok r.settings

end Herald.Settings
