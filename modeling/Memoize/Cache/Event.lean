/-!
# Cache events

What a cache reports about its use.
-/

namespace Memoize

/-- What happened to a cache. -/
inductive Activity where
  /-- A lookup found a value. -/
  | hit
  /-- A lookup found none. -/
  | miss
  /-- A value was stored. -/
  | inserted
  deriving DecidableEq, Repr

/-- How important an event is. -/
inductive Level where
  | debug
  | trace
  deriving DecidableEq, Repr

namespace Activity

/-- The name of an activity in reports. -/
def name : Activity → String
  | hit => "cache.hit"
  | miss => "cache.miss"
  | inserted => "cache.inserted"

/-- Lookups are reported at the debug level, stored values at the trace level. -/
def level : Activity → Level
  | hit => .debug
  | miss => .debug
  | inserted => .trace

end Activity

/-- The name of a level in reports. -/
def Level.name : Level → String
  | debug => "DEBUG"
  | trace => "TRACE"

/-- A report: the name of the cache and what happened to it. -/
structure Event where
  cacheName : String
  activity : Activity
  deriving DecidableEq, Repr

/-- The message that all reports carry. -/
def Event.message : String := "cache.event"

end Memoize
