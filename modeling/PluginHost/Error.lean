import PluginHost.Path
import PluginHost.Abi

/-!
# Errors

Each error is a cause; its wording is one function.

* `AbiError`: why the exports of a library give no descriptors.
* `LoadError`: why a library cannot be loaded.
* `FileError`: why a path leads nowhere.
-/

namespace PluginHost

set_option autoImplicit false

/-! ## Exports -/

inductive AbiError where
  | missingSymbols
  | unsupportedVersion (version : Int)
  | incompatible (version : Int) (expected found : Nat)
  | missingInfoFunction (version : Int) (symbol : String)
  | legacyInfoUnavailable (version : Int)
  | noDescriptors
  deriving Repr, DecidableEq

def AbiError.message : AbiError → String
  | .missingSymbols => "library does not export the dynaplug plugin symbols"
  | .unsupportedVersion v => "unsupported plugin API version " ++ toString v
  | .incompatible v expected found =>
    "incompatible plugin API: version " ++ toString v ++ ", expected descriptor size [" ++
      toString expected ++ "], got [" ++ toString found ++ "]"
  | .missingInfoFunction v symbol =>
    "plugin API version " ++ toString v ++ " requires the `" ++ symbol ++ "` function"
  | .legacyInfoUnavailable v =>
    "plugin info function for API version " ++ toString v ++ " did not provide a descriptor"
  | .noDescriptors => "library exports no usable plugin descriptors"

/-! ## Loading -/

inductive LoadError where
  | notFound (path : Path)
  | cannotOpen (path : Path)
  | abi (path : Path) (cause : AbiError)
  deriving Repr, DecidableEq

namespace LoadError

/-- What stands for the reason that the system gives for a library it cannot open. -/
def systemReason : String := "<os>"

def path : LoadError → Path
  | .notFound p => p
  | .cannotOpen p => p
  | .abi p _ => p

/-- The wording of the underlying cause, if there is one. -/
def cause : LoadError → Option String
  | .notFound _ => none
  | .cannotOpen _ => some systemReason
  | .abi _ e => some e.message

def message : LoadError → String
  | .notFound p => "Library [" ++ p.text ++ "] does not exist"
  | .cannotOpen p => "Library [" ++ p.text ++ "] could not be opened: " ++ systemReason
  | .abi p e => "Failed to load plugins from library [" ++ p.text ++ "]: " ++ e.message

end LoadError

/-! ## Files -/

/-- Why a path leads to no file, or its file gives no text. -/
inductive FileError where
  | notFound
  | notDirectory
  | isDirectory
  | tooLong
  | tooManyLinks
  | interiorNul
  | notText
  deriving Repr, DecidableEq

def FileError.message : FileError → String
  | .notFound => "No such file or directory (os error 2)"
  | .notDirectory => "Not a directory (os error 20)"
  | .isDirectory => "Is a directory (os error 21)"
  | .tooLong => "File name too long (os error 36)"
  | .tooManyLinks => "Too many levels of symbolic links (os error 40)"
  | .interiorNul => "file name contained an unexpected NUL byte"
  | .notText => "stream did not contain valid UTF-8"

end PluginHost
