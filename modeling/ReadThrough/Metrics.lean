import ReadThrough.Group.Stats

/-!
# Metrics text

Every counter and gauge of a group becomes a series of a metric family, labelled by the group and
for the tiers by the tier. Families are written in the order of their names and series in the
order of their label values, so the text does not depend on the order of the snapshots. Where a
group occurs several times, counters add up as 64-bit words and the last gauge stands.
-/

namespace ReadThrough.Metrics

/-- The content type of the metrics text. -/
def contentType : String := "text/plain; version=0.0.4"

/-- How the values of a series are combined and read. -/
inductive Kind where
  | counter
  | gauge
deriving DecidableEq, Repr

/-- The word for a kind. -/
def Kind.word : Kind → String
  | .counter => "counter"
  | .gauge => "gauge"

/-- A metric family: its name and help text, its labels, and the label values with the numbers
that one snapshot contributes. -/
structure Family where
  name : String
  help : String
  kind : Kind
  labels : List String
  read : GroupStats → List (List String × Nat)

/-- A counter of a whole group. -/
def groupCounter (name help : String) (field : GroupStats → Nat) : Family :=
  ⟨"peercache_" ++ name, help, .counter, ["group"], fun s ↦ [([s.name], field s)]⟩

/-- A family with one series for each tier of a group. -/
def tierFamily (kind : Kind) (name help : String) (field : TierStats → Nat) : Family :=
  ⟨"peercache_" ++ name, help, kind, ["group", "tier"],
    fun s ↦ [([s.name, Tier.main.word], field s.main), ([s.name, Tier.hot.word], field s.hot)]⟩

/-- All families in the order of their names. -/
def families : List Family :=
  [groupCounter "cache_hits_total" "Gets answered from either tier" (·.cacheHits),
    groupCounter "coalesced_waits_total" "Gets that joined an in-flight fill" (·.coalescedWaits),
    groupCounter "evictions_total" "Entries evicted from either tier for capacity" (·.evictions),
    groupCounter "expirations_total" "Entries found expired on read" (·.expirations),
    groupCounter "gets_total" "Gets received" (·.gets),
    groupCounter "loads_deduped_total" "Fills executed after coalescing" (·.loadsDeduped),
    groupCounter "loads_total" "Gets that missed the cache" (·.loads),
    groupCounter "local_load_errors_total" "Failed loader calls" (·.localLoadErrors),
    groupCounter "local_loads_total" "Successful loader calls" (·.localLoads),
    groupCounter "negative_hits_total" "Gets answered from the negative cache" (·.negativeHits),
    groupCounter "peer_errors_total" "Failed fetches from the owning peer" (·.peerErrors),
    groupCounter "peer_loads_total" "Successful fetches from the owning peer" (·.peerLoads),
    groupCounter "removals_total" "Entries deleted from a tier" (·.removals),
    groupCounter "server_requests_total" "Requests served to peers" (·.serverRequests),
    tierFamily .gauge "tier_bytes" "Bytes held by the tier" (·.bytes),
    tierFamily .counter "tier_evictions_total" "Entries evicted for capacity" (·.evictions),
    tierFamily .counter "tier_gets_total" "Lookups against the tier" (·.gets),
    tierFamily .counter "tier_hits_total" "Lookups answered by the tier" (·.hits),
    tierFamily .gauge "tier_items" "Entries held by the tier" (·.items),
    tierFamily .gauge "tier_max_bytes" "Byte allotment of the tier" (·.maxBytes)]

/-- Combine a new number with the one a series has. -/
def Kind.combine : Kind → Nat → Nat → Nat
  | .counter, old, new => (old + new) % UInt64.size
  | .gauge, _, new => new

/-- Put a number into a list of series ordered by label values. -/
def record (kind : Kind) (labels : List String) (n : Nat) :
    List (List String × Nat) → List (List String × Nat)
  | [] => [(labels, n)]
  | (old, m) :: rest =>
      if labels < old then (labels, n) :: (old, m) :: rest
      else if labels = old then (old, kind.combine m n) :: rest
      else (old, m) :: record kind labels n rest

/-- The series of a family, ordered by label values. -/
def Family.series (family : Family) (snapshots : List GroupStats) : List (List String × Nat) :=
  (snapshots.flatMap family.read).foldl
    (fun series (labels, n) ↦ record family.kind labels n series) []

/-- One character of a label value: backslash, quote and line feed are escaped. -/
def labelChar (c : Char) : List Char :=
  if c = '\\' then ['\\', '\\']
  else if c = '"' then ['\\', '"']
  else if c = '\n' then ['\\', 'n']
  else [c]

/-- A label with its value. -/
def labelText (label value : String) : String :=
  label ++ "=\"" ++ String.ofList (value.toList.flatMap labelChar) ++ "\""

/-- The number of a series as text. A gauge is a signed 64-bit number. -/
def Kind.number : Kind → Nat → String
  | .counter, n => Decimal.naturalText n
  | .gauge, n => Decimal.integerText (Int.bmod n UInt64.size)

/-- The line of a series. -/
def Family.line (family : Family) (labels : List String) (n : Nat) : String :=
  family.name ++ "\x7b" ++ ",".intercalate (List.zipWith labelText family.labels labels) ++
    "\x7d " ++ family.kind.number n ++ "\n"

/-- The text of a family. A family without series is left out. -/
def Family.text (family : Family) (snapshots : List GroupStats) : String :=
  match family.series snapshots with
  | [] => ""
  | series =>
      "# HELP " ++ family.name ++ " " ++ family.help ++ "\n" ++
        "# TYPE " ++ family.name ++ " " ++ family.kind.word ++ "\n" ++
        String.join (series.map fun (labels, n) ↦ family.line labels n)

/-- The metrics text of some snapshots. -/
def render (snapshots : List GroupStats) : String :=
  String.join (families.map (·.text snapshots))

end ReadThrough.Metrics
