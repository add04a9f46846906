/-
What a store does when its cache fails: give the error to the caller, warn and go on, or go on.
-/
import ObjectTiers.Text.Blank
import ObjectTiers.Tier
import ObjectTiers.Tier.Cache

namespace ObjectTiers

/-- What is done after a failure of the cache. -/
inductive Policy
  | throw
  | log
  | ignore
  deriving DecidableEq, Repr

namespace Policy

/-- What is done unless something else is set: a warning is given. -/
def default : Policy := .log

/-- The word for a policy. -/
def label : Policy → String
  | throw => "throw"
  | log => "log"
  | ignore => "ignore"

/-- The policy a word names. -/
def ofWord? (s : String) : Option Policy :=
  let w := Text.settingWord s
  if w = "throw" then some .throw
  else if w = "log" then some .log
  else if w = "ignore" then some .ignore
  else none

/-- The complaint about a text that names no policy. -/
def unknownMessage (s : String) : String := s!"Unknown cache error policy: {s}"

/-- The warnings to give before going on, or the error to fail with. -/
def handle (p : Policy) (e : CacheError) : Except CacheError (List Warning) :=
  match p with
  | throw => .error e
  | log => .ok [.cacheFailure]
  | ignore => .ok []

end Policy

end ObjectTiers
