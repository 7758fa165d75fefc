import ReadThrough.Cache.Tiered
import ReadThrough.Datum.Basic
import ReadThrough.Decimal.Shortest

/-!
# Statistics of a group

Every way a get can be answered is counted on its own. Entries that leave either tier are counted
by the reason they left for.
-/

namespace ReadThrough

/-- The counters that a group keeps itself. -/
structure GroupCounts where
  /-- every get, however answered -/
  gets : Nat
  /-- gets answered from a tier -/
  cacheHits : Nat
  /-- fetches that gave a value -/
  peerLoads : Nat
  /-- fetches that failed -/
  peerErrors : Nat
  /-- gets that found neither a value nor a remembered absence -/
  loads : Nat
  /-- loader calls that gave a value -/
  localLoads : Nat
  /-- loader calls that gave none -/
  localLoadErrors : Nat
  /-- requests from peers -/
  serverRequests : Nat
  /-- gets answered by a remembered absence -/
  negativeHits : Nat
  evictions : Nat
  removals : Nat
  expirations : Nat
deriving DecidableEq, Repr

namespace GroupCounts

/-- Nothing counted. -/
def zero : GroupCounts :=
  ⟨0, 0, 0, 0, 0, 0, 0, 0, 0, 0, 0, 0⟩

/-- Count one departure by its reason. -/
def depart (counts : GroupCounts) (departure : Departure) : GroupCounts :=
  match departure.reason with
  | .evicted => { counts with evictions := counts.evictions + 1 }
  | .removed => { counts with removals := counts.removals + 1 }
  | .expired => { counts with expirations := counts.expirations + 1 }

/-- Count departures. -/
def departAll (counts : GroupCounts) (departures : List Departure) : GroupCounts :=
  departures.foldl depart counts

end GroupCounts

/-- A point-in-time view of a group. -/
structure GroupStats where
  name : String
  gets : Nat
  cacheHits : Nat
  peerLoads : Nat
  peerErrors : Nat
  loads : Nat
  /-- fills that were led -/
  loadsDeduped : Nat
  /-- gets that joined a fill -/
  coalescedWaits : Nat
  localLoads : Nat
  localLoadErrors : Nat
  serverRequests : Nat
  negativeHits : Nat
  evictions : Nat
  removals : Nat
  expirations : Nat
  main : TierStats
  hot : TierStats
deriving DecidableEq, Repr

/-- The fraction of reads that the tier answered. -/
def TierStats.hitRatio (stats : TierStats) : Float :=
  Decimal.ratio stats.hits stats.gets

/-- The fraction of its allotment that the tier uses. -/
def TierStats.utilization (stats : TierStats) : Float :=
  Decimal.ratio stats.bytes stats.maxBytes

/-- A tier's view as an object. -/
def TierStats.toDatum (stats : TierStats) : Datum :=
  .object
    [("bytes", .natural stats.bytes), ("max_bytes", .natural stats.maxBytes),
      ("items", .natural stats.items), ("gets", .natural stats.gets),
      ("hits", .natural stats.hits), ("evictions", .natural stats.evictions)]

namespace GroupStats

/-- The fraction of gets that were answered from a tier. -/
def hitRatio (stats : GroupStats) : Float :=
  Decimal.ratio stats.cacheHits stats.gets

/-- The named counters of a group, in the order in which they are reported. -/
def counters (stats : GroupStats) : List (String × Nat) :=
  [("gets", stats.gets), ("cache_hits", stats.cacheHits), ("peer_loads", stats.peerLoads),
    ("peer_errors", stats.peerErrors), ("loads", stats.loads),
    ("loads_deduped", stats.loadsDeduped), ("coalesced_waits", stats.coalescedWaits),
    ("local_loads", stats.localLoads), ("local_load_errors", stats.localLoadErrors),
    ("server_requests", stats.serverRequests), ("negative_hits", stats.negativeHits),
    ("evictions", stats.evictions), ("removals", stats.removals),
    ("expirations", stats.expirations)]

/-- A group's view as an object. -/
def toDatum (stats : GroupStats) : Datum :=
  .object
    (("name", .text stats.name) ::
      stats.counters.map (fun (name, n) ↦ (name, Datum.natural n)) ++
      [("main", stats.main.toDatum), ("hot", stats.hot.toDatum)])

end GroupStats

end ReadThrough
