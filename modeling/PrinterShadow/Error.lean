import PrinterShadow.Config.Fault

/-!
What can go wrong at the edges: reading a configuration, and handing commands to the sender.
Following a print never fails.
-/

namespace PrinterShadow

inductive ConfigError where
  /-- The file cannot be read. -/
  | unreadable (path cause : String)
  /-- The text is no configuration. -/
  | malformed
  /-- The configuration has no text. -/
  | unwritable
  /-- The configuration was read and cannot be used. -/
  | invalid (reason : String)
  deriving DecidableEq, Repr

def ConfigError.message : ConfigError → String
  | .unreadable path cause => s!"Failed to read configuration {path}: {cause}"
  | .malformed => "Failed to parse configuration"
  | .unwritable => "Failed to serialize configuration"
  | .invalid reason => s!"Invalid configuration: {reason}"

/-- Why a command did not reach the sender. -/
inductive InjectionError where
  | closed (command : String)
  | full (command : String)
  deriving DecidableEq, Repr

def InjectionError.message : InjectionError → String
  | .closed command => s!"Manual command channel closed while injecting '{command}'"
  | .full command => s!"Manual command channel full while injecting '{command}'"

inductive Error where
  | config (error : ConfigError)
  | injection (error : InjectionError)
  | other (text : String)
  deriving DecidableEq, Repr

namespace Error

def message : Error → String
  | .config error => error.message
  | .injection error => error.message
  | .other text => text

def isConfig : Error → Bool
  | .config _ => true
  | _ => false

def isInjection : Error → Bool
  | .injection _ => true
  | _ => false

end Error

/-- Accepts a configuration without faults. -/
def Config.validate (c : Config) : Except ConfigError Unit :=
  match c.fault? with
  | some fault => .error (.invalid fault.message)
  | none => .ok ()

end PrinterShadow
