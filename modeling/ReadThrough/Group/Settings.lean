import ReadThrough.Cache.Policy
import ReadThrough.Cache.Value

/-!
# Settings of a group
-/

namespace ReadThrough

/-- The budget for remembered absences where no other is given. -/
def defaultNegativeCacheBytes : Nat := 1024 * 1024

/-- What a group is made with. -/
structure GroupSettings where
  /-- byte budget shared by both tiers -/
  cacheBytes : Nat
  /-- ratio of the main to the hot allotment -/
  hotRatio : Nat
  /-- which fetched values are copied into the hot tier -/
  hotAdmission : Admission
  /-- load here when the owner cannot be reached -/
  fallbackToLocal : Bool
  /-- how long an absence is remembered, if at all -/
  negativeTtl : Option Millis
  /-- byte budget for remembered absences -/
  negativeCacheBytes : Nat
deriving DecidableEq, Repr

/-- The settings where nothing is given. -/
def GroupSettings.default : GroupSettings :=
  { cacheBytes := defaultCacheBytes
    hotRatio := defaultHotRatio
    hotAdmission := .always
    fallbackToLocal := true
    negativeTtl := none
    negativeCacheBytes := defaultNegativeCacheBytes }

/-- The decimal places of a fraction of a second in thousandths, without trailing zeros. -/
def thousandths (n : Nat) : String :=
  let digits := (Nat.toDigits 10 (1000 + n)).drop 1
  String.ofList (digits.reverse.dropWhile (· = '0')).reverse

/-- The diagnostic text of a span of time: seconds with their fraction, or milliseconds where
there is no whole second. -/
def describeMillis (span : Millis) : String :=
  if span = 0 then "0ns"
  else if span < 1000 then s!"{span}ms"
  else if span % 1000 = 0 then s!"{span / 1000}s"
  else s!"{span / 1000}.{thousandths (span % 1000)}s"

/-- The diagnostic text of a group's settings. -/
def GroupSettings.describe (settings : GroupSettings) : String :=
  let ttl :=
    match settings.negativeTtl with
    | none => "None"
    | some span => s!"Some({describeMillis span})"
  s!"GroupConfig \x7b cache_bytes: {settings.cacheBytes}, hot_ratio: {settings.hotRatio}, " ++
    s!"hot_admission: {settings.hotAdmission.describe}, " ++
    s!"fallback_to_local: {settings.fallbackToLocal}, negative_ttl: {ttl}, " ++
    s!"negative_cache_bytes: {settings.negativeCacheBytes} \x7d"

end ReadThrough
