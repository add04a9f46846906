/-
The settings of a process: raw bytes under names. A setting that is not UTF-8 counts as absent.
-/
import ObjectTiers.KeyRing

namespace ObjectTiers

/-- The bytes that are set under each name, if any are. -/
abbrev Environment := String → Option Bytes

namespace Environment

/-- The text of a setting. -/
def text? (env : Environment) (name : String) : Option String := (env name).bind Bytes.toText?

end Environment

namespace KeyRing

/-- The setting that lists the keys of a process. -/
def setting : String := "TIERSTORE_KEYS"

/-- The ring that the settings list; without the setting it is empty. -/
def ofEnvironment (env : Environment) : Except SecretError KeyRing :=
  match env.text? setting with
  | none => .ok empty
  | some text => parse text

end KeyRing

end ObjectTiers
