import PluginHost.Config

/-!
# Failures

A failure ends a command. It is written with the errors behind it, the nearest one first; several of
them are numbered, and the later lines of a text are moved in below the first.

* `Failure`: what is said, and what is behind it.
* `Failure.report`: the written form.
-/

namespace PluginHost.CommandLine

set_option autoImplicit false

/-- What is said when a command ends badly, and the wording of the errors behind it. -/
structure Failure where
  message : String
  causes : List String
  deriving Repr, DecidableEq

namespace Failure

/-- The text with every later line moved in. -/
def moveIn (margin : String) (text : String) : String :=
  String.join
    (text.toList.map fun c => if c = '\n' then "\n" ++ margin else String.singleton c)

/-- The number of a cause, set to the right of five columns. -/
def number (n : Nat) : String :=
  String.ofList (List.replicate (5 - (toString n).length) ' ') ++ toString n ++ ": "

def causeLines : List String → String
  | [] => ""
  | [cause] => "\n\nCaused by:\n    " ++ moveIn "    " cause
  | causes =>
    "\n\nCaused by:" ++
      String.join (causes.mapIdx fun n cause => "\n" ++ number n ++ moveIn "       " cause)

@[simp] theorem causeLines_nil : causeLines [] = "" := rfl

def report (f : Failure) : String := "Error: " ++ f.message ++ causeLines f.causes ++ "\n"

/-! ## Causes -/

def causesOfConfig (e : ConfigError) : List String :=
  match e with
  | .unreadable _ cause => [e.message, cause.message]
  | .document _ => [e.message, ConfigError.documentReason]
  | .invalidValue _ _ => [e.message]

def causesOfLoad (e : LoadError) : List String := e.message :: e.cause.toList

example : number 0 = "    0: " := by decide +kernel

end Failure

end PluginHost.CommandLine
