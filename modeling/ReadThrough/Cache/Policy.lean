/-!
# Budget split and admission

The two tiers of a cache share one byte budget. The main tier may use all of it and the hot tier
a fixed fraction; when the pair is over budget the hot tier gives way if it holds more than that
fraction of what the main tier uses. An admission rule says which values fetched from a peer are
copied into the hot tier.
-/

namespace ReadThrough

/-- The fraction of the budget open to the hot tier where no other is given: one in eight. -/
def defaultHotRatio : Nat := 8

/-- The byte budget of a cache where no other is given. -/
def defaultCacheBytes : Nat := 64 * 1024 * 1024

/-- A byte budget for two tiers, with the ratio of the main to the hot allotment. -/
structure TierPolicy where
  cacheBytes : Nat
  hotRatio : Nat
deriving DecidableEq, Repr

namespace TierPolicy

/-- The default ratio over a given budget. -/
def ofBudget (cacheBytes : Nat) : TierPolicy :=
  ⟨cacheBytes, defaultHotRatio⟩

/-- Set the ratio, at least one. -/
def withHotRatio (policy : TierPolicy) (ratio : Nat) : TierPolicy :=
  { policy with hotRatio := max ratio 1 }

/-- The divisor that the ratio stands for; a ratio of zero counts as one. -/
def divisor (policy : TierPolicy) : Nat :=
  max policy.hotRatio 1

/-- The allotment of the main tier. -/
def mainBytes (policy : TierPolicy) : Nat :=
  policy.cacheBytes

/-- The allotment of the hot tier. -/
def hotBytes (policy : TierPolicy) : Nat :=
  policy.mainBytes / policy.divisor

/-- Whether the hot tier holds more than its share of what the main tier uses. -/
def hotIsOverShare (policy : TierPolicy) (mainUsed hotUsed : Nat) : Bool :=
  mainUsed / policy.divisor < hotUsed

/-- The diagnostic text of a policy. -/
def describe (policy : TierPolicy) : String :=
  s!"TierPolicy \x7b cache_bytes: {policy.cacheBytes}, hot_ratio: {policy.hotRatio} \x7d"

end TierPolicy

/-- Which values fetched from a peer are copied into the hot tier. -/
inductive Admission where
  | always
  | oneIn (n : Nat)
  | never
deriving DecidableEq, Repr

/-- The diagnostic text of an admission rule. -/
def Admission.describe : Admission → String
  | .always => "Always"
  | .oneIn n => s!"OneIn({n})"
  | .never => "Never"

/-- An admission rule with the number of values it has counted. Only a rule that lets through
one value in two or more counts. -/
structure AdmissionGate where
  rule : Admission
  seen : Nat
deriving DecidableEq, Repr

namespace AdmissionGate

/-- A gate that has counted nothing. -/
def ofRule (rule : Admission) : AdmissionGate :=
  ⟨rule, 0⟩

/-- Decide on the next value: the first of every `n` passes, and one in zero or one lets
everything through. -/
def decideNext (gate : AdmissionGate) : Bool × AdmissionGate :=
  match gate.rule with
  | .always => (true, gate)
  | .never => (false, gate)
  | .oneIn n =>
      if n ≤ 1 then (true, gate)
      else (gate.seen % n = 0, { gate with seen := gate.seen + 1 })

/-- The decisions on the next `count` values, first one first. -/
def decisions (gate : AdmissionGate) : Nat → List Bool
  | 0 => []
  | count + 1 =>
      let (passes, next) := gate.decideNext
      passes :: next.decisions count

end AdmissionGate

end ReadThrough
