import ReadThrough.Fault
import ReadThrough.Flight.Table
import ReadThrough.Group.Settings
import ReadThrough.Group.Stats
import ReadThrough.Text.Quoted

/-!
# Groups

A group is a named two-tier cache with its own budget, a memory of absences, and a flight table
that lets one fill serve every get that waits for its key. The functions here are the parts of a
get that happen in one go: consulting the caches, taking in what a loader or a peer answered, and
the operations that need no fill. Only values are cached; absences are remembered apart, and only
where a lifetime for them is set.
-/

namespace ReadThrough

/-- A group with everything it holds. -/
structure Group where
  name : String
  settings : GroupSettings
  cache : Tiered
  /-- remembered absences, where they are remembered -/
  absences : Option Recency
  gate : AdmissionGate
  flights : FlightTable String Outcome
  counts : GroupCounts

namespace Group

/-- A group that holds nothing. -/
def create (name : String) (settings : GroupSettings) : Group :=
  { name, settings
    cache := .empty ((TierPolicy.ofBudget settings.cacheBytes).withHotRatio settings.hotRatio)
    absences := settings.negativeTtl.map fun _ ↦ .empty settings.negativeCacheBytes
    gate := .ofRule settings.hotAdmission
    flights := .empty
    counts := .zero }

/-- Take over the cache that an operation leaves and count its departures. -/
def absorb {α : Type} (group : Group) (step : Tiered.Step α) : Group :=
  { group with cache := step.cache, counts := group.counts.departAll step.departures }

/-- Add to the counters. -/
def count (group : Group) (change : GroupCounts → GroupCounts) : Group :=
  { group with counts := change group.counts }

/-- The first part of a get: refuse it when the caller's token has fired, answer it from a tier
or from a remembered absence, or find that a fill is needed. -/
def consult (group : Group) (key : String) (now : Millis) (cancelled : Bool) :
    Option Outcome × Group :=
  let asked := group.count fun c ↦ { c with gets := c.gets + 1 }
  if cancelled then (some (.error .cancelled), asked)
  else
    let read := asked.cache.get key now
    let looked := asked.absorb read
    match read.result with
    | some (value, _) =>
        (some (.ok value), looked.count fun c ↦ { c with cacheHits := c.cacheHits + 1 })
    | none =>
        let remembered := looked.absences.map fun absences ↦ absences.get key now
        let consulted := { looked with absences := remembered.map Recency.Step.cache }
        if remembered.any (·.result.isSome) then
          (some (.error (.notFound key)),
            consulted.count fun c ↦ { c with negativeHits := c.negativeHits + 1 })
        else (none, consulted.count fun c ↦ { c with loads := c.loads + 1 })

/-- Remember that a key has no value, where absences are remembered. -/
def rememberAbsent (group : Group) (key : String) (now : Millis) : Group :=
  match group.absences, group.settings.negativeTtl with
  | some absences, some ttl =>
      { group with absences := some (absences.add key (.make now .empty (some ttl))).cache }
  | _, _ => group

/-- Take in what a loader answered: a value goes to the main tier. -/
def takeLoaded (group : Group) (key : String) (now : Millis) (answer : LoadAnswer) :
    Outcome × Group :=
  match answer with
  | .ok value =>
      let counted := group.count fun c ↦ { c with localLoads := c.localLoads + 1 }
      (.ok value, counted.absorb (counted.cache.add key value .main))
  | .error fault =>
      let counted := group.count fun c ↦ { c with localLoadErrors := c.localLoadErrors + 1 }
      match fault with
      | .notFound => (.error (.notFound key), counted.rememberAbsent key now)
      | .failed reason => (.error (.loaderFailure key reason), counted)

/-- What follows from the answer of a peer. -/
inductive Fetched where
  | done (outcome : Outcome)
  /-- the peer failed, and the key is to be loaded here -/
  | fallBack (fault : Fault)

/-- Take in what a peer answered: a value goes to the hot tier if it is admitted; a failure of
the peer is passed on unless the group falls back to loading here. -/
def takeFetched (group : Group) (key : String) (now : Millis) (answer : Outcome) :
    Fetched × Group :=
  match answer with
  | .ok value =>
      let counted := group.count fun c ↦ { c with peerLoads := c.peerLoads + 1 }
      let (admitted, gate) := counted.gate.decideNext
      let gated := { counted with gate }
      (.done (.ok value),
        if admitted then gated.absorb (gated.cache.add key value .hot) else gated)
  | .error (.notFound _) => (.done (.error (.notFound key)), group.rememberAbsent key now)
  | .error .cancelled => (.done (.error .cancelled), group)
  | .error fault =>
      let counted := group.count fun c ↦ { c with peerErrors := c.peerErrors + 1 }
      if counted.settings.fallbackToLocal then (.fallBack fault, counted)
      else (.done (.error fault), counted)

/-- Drop a key from the tiers and from the remembered absences. The answer tells whether a tier
held it. -/
def remove (group : Group) (key : String) : Bool × Group :=
  let forgotten :=
    { group with
      absences := group.absences.map fun (absences : Recency) ↦ (absences.remove key).cache }
  let step := forgotten.cache.remove key
  (step.result, forgotten.absorb step)

/-- Store a value in a tier directly. -/
def seed (group : Group) (key : String) (value : Value) (tier : Tier) : Bool × Group :=
  let step := group.cache.add key value tier
  (step.result, group.absorb step)

/-- Read the tiers directly. -/
def lookup (group : Group) (key : String) (now : Millis) : Option (Value × Tier) × Group :=
  let step := group.cache.get key now
  (step.result, group.absorb step)

/-- Forget every entry of the tiers. -/
def clear (group : Group) : Group :=
  { group with cache := group.cache.clear }

/-- Count a request from a peer. -/
def recordServerRequest (group : Group) : Group :=
  group.count fun c ↦ { c with serverRequests := c.serverRequests + 1 }

/-- The view of a group. -/
def stats (group : Group) : GroupStats :=
  { name := group.name
    gets := group.counts.gets
    cacheHits := group.counts.cacheHits
    peerLoads := group.counts.peerLoads
    peerErrors := group.counts.peerErrors
    loads := group.counts.loads
    loadsDeduped := group.flights.executions
    coalescedWaits := group.flights.waits
    localLoads := group.counts.localLoads
    localLoadErrors := group.counts.localLoadErrors
    serverRequests := group.counts.serverRequests
    negativeHits := group.counts.negativeHits
    evictions := group.counts.evictions
    removals := group.counts.removals
    expirations := group.counts.expirations
    main := group.cache.stats .main
    hot := group.cache.stats .hot }

/-- The diagnostic text of a group. -/
def describe (group : Group) : String :=
  s!"Group \x7b name: {Text.quoted group.name}, config: {group.settings.describe}, " ++
    s!"flights: {group.flights.describe} \x7d"

end Group

end ReadThrough
