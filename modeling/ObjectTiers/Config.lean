/-
The configuration of a store, and how it is read from the settings of a process: time to live,
policy, capacity and use of the cache, in this order; the first setting at fault is reported.
-/
import ObjectTiers.Environment
import ObjectTiers.Policy
import ObjectTiers.Text.Decimal
import ObjectTiers.Tier.Memory

namespace ObjectTiers

/-- `cacheTtl` is in seconds; zero keeps entries for ever. -/
structure Config where
  cacheTtl : UInt64
  policy : Policy
  capacity : UInt64
  useCache : Bool
  deriving DecidableEq, Repr

/-- Why settings make no configuration. The values are quoted as they were set, blanks and all. -/
inductive ConfigError
  | invalidNumber (name value : String) (fault : Text.NumberFault)
  | invalidBool (name value : String)
  | invalidPolicy (value : String)
  | zeroCapacity
  deriving DecidableEq, Repr

/-- The text of an error. -/
def ConfigError.message : ConfigError → String
  | .invalidNumber name value fault => s!"failed to parse {name}='{value}': " ++ fault.message
  | .invalidBool name value => s!"invalid boolean {name}='{value}'"
  | .invalidPolicy value =>
    s!"invalid cache error policy '{value}': expected throw, log or ignore"
  | .zeroCapacity => "runtime capacity must be at least 1"

namespace Config

/-- What a store does where nothing is set: entries live for an hour, and the cache is used. -/
def default : Config := ⟨3600, .default, .ofNat Memory.defaultCapacity, true⟩

/-- Where the time to live is set, in seconds. -/
def ttlSetting : String := "TIERSTORE_CACHE_TTL_SECS"

/-- Where the policy for a failing cache is set. -/
def policySetting : String := "TIERSTORE_CACHE_ERROR_POLICY"

/-- Where the capacity of the memory is set. -/
def capacitySetting : String := "TIERSTORE_RUNTIME_CAPACITY"

/-- Where it is set whether reads use the cache. -/
def useCacheSetting : String := "TIERSTORE_USE_CACHE"

/-- A memory must have room for one object. -/
def check (c : Config) : Except ConfigError Unit :=
  if c.capacity = 0 then .error .zeroCapacity else .ok ()

/-- The truth value a word names. -/
def boolOfWord? (s : String) : Option Bool :=
  let w := Text.settingWord s
  if w = "true" ∨ w = "1" ∨ w = "yes" ∨ w = "on" then some true
  else if w = "false" ∨ w = "0" ∨ w = "no" ∨ w = "off" then some false
  else none

/-- A setting that is a number, or `absent` where it is not set. -/
def readNumber (env : Environment) (name : String) (absent : UInt64) :
    Except ConfigError UInt64 :=
  match env.text? name with
  | none => .ok absent
  | some value =>
    match Text.readWord64 (Text.trim value) with
    | .ok n => .ok n
    | .error fault => .error (.invalidNumber name value fault)

/-- The setting of the policy, or `absent` where it is not set. -/
def readPolicy (env : Environment) (absent : Policy) : Except ConfigError Policy :=
  match env.text? policySetting with
  | none => .ok absent
  | some value =>
    match Policy.ofWord? value with
    | some p => .ok p
    | none => .error (.invalidPolicy value)

/-- A setting that is a truth value, or `absent` where it is not set. -/
def readBool (env : Environment) (name : String) (absent : Bool) : Except ConfigError Bool :=
  match env.text? name with
  | none => .ok absent
  | some value =>
    match boolOfWord? value with
    | some b => .ok b
    | none => .error (.invalidBool name value)

/-- The configuration in the settings, with the default for each that is absent. -/
def ofEnvironment (env : Environment) : Except ConfigError Config := do
  let cacheTtl ← readNumber env ttlSetting default.cacheTtl
  let policy ← readPolicy env default.policy
  let capacity ← readNumber env capacitySetting default.capacity
  let useCache ← readBool env useCacheSetting default.useCache
  let config : Config := ⟨cacheTtl, policy, capacity, useCache⟩
  config.check
  pure config

/-- The time to live in milliseconds. -/
def ttlMilliseconds (c : Config) : Nat := 1000 * c.cacheTtl.toNat

/-- A policy as a configuration shows it. -/
def policyName : Policy → String
  | .throw => "Throw"
  | .log => "Log"
  | .ignore => "Ignore"

/-- A number of seconds as it is shown: in the largest unit it has a whole number of, so that zero
is shown in the smallest unit. -/
def durationText (seconds : UInt64) : String :=
  if seconds = 0 then "0ns" else toString seconds.toNat ++ "s"

/-- How a configuration shows itself. -/
def describe (c : Config) : String :=
  "StoreConfig \x7b cache_ttl: " ++ durationText c.cacheTtl ++ ", cache_error_policy: "
    ++ policyName c.policy ++ ", runtime_capacity: " ++ toString c.capacity.toNat
    ++ ", use_cache: " ++ toString c.useCache ++ " \x7d"

end Config

end ObjectTiers
