import ReadThrough.Flight.Table
import ReadThrough.Proofs.Tables

/-!
# Lemmas on the flight table
-/

namespace ReadThrough

variable {K R : Type} [BEq K] [LawfulBEq K]

namespace FlightTable

omit [LawfulBEq K] in
@[simp] theorem records_erase (table : FlightTable K R) (key : K) :
    (table.erase key).records = table.records.filter fun record ↦ !(record.1 == key) := rfl

omit [LawfulBEq K] in
@[simp] theorem flights_erase (table : FlightTable K R) (key : K) :
    (table.erase key).flights = table.flights := rfl

omit [BEq K] [LawfulBEq K] in
@[simp] theorem flights_resolve (table : FlightTable K R) (flight : Nat) (status : Flight R) :
    (table.resolve flight status).flights = table.flights.setIfInBounds flight status := rfl

/-- The records that are left are those of other keys. -/
theorem mem_records_erase {table : FlightTable K R} {key other : K} {flight : Nat} :
    (other, flight) ∈ (table.erase key).records ↔
      (other, flight) ∈ table.records ∧ other ≠ key := by
  simp

omit [BEq K] [LawfulBEq K] in
/-- A flight that reads as landed exists and has landed. -/
theorem status_eq_landed {table : FlightTable K R} {flight : Nat} {outcome : R} :
    table.status flight = .landed outcome ↔ table.flights[flight]? = some (.landed outcome) := by
  unfold status
  rw [Array.getD_eq_getD_getElem?]
  cases table.flights[flight]? <;> simp

omit [BEq K] [LawfulBEq K] in
/-- A flight that reads as aloft exists and is aloft. -/
theorem status_eq_aloft {table : FlightTable K R} {flight : Nat} :
    table.status flight = .aloft ↔ table.flights[flight]? = some .aloft := by
  unfold status
  rw [Array.getD_eq_getD_getElem?]
  cases table.flights[flight]? <;> simp

omit [BEq K] [LawfulBEq K] in
/-- A flight that begins changes what no other flight reads as. -/
theorem status_push (table : FlightTable K R) (records : List (K × Nat)) (executions flight : Nat) :
    ({ table with records, flights := table.flights.push .aloft, executions } :
      FlightTable K R).status flight =
      if flight = table.flights.size then .aloft else table.status flight := by
  simp only [status, Array.getD_eq_getD_getElem?, Array.getElem?_push]
  split <;> rfl

omit [BEq K] [LawfulBEq K] in
/-- Telling what became of a flight changes what no other flight reads as. -/
theorem status_resolve (table : FlightTable K R) {flight : Nat} (h : flight < table.flights.size)
    (status : Flight R) (other : Nat) :
    (table.resolve flight status).status other =
      if other = flight then status else table.status other := by
  rw [FlightTable.status, flights_resolve, Array.getD_eq_getD_getElem?,
    Array.getElem?_setIfInBounds]
  by_cases heq : flight = other
  · subst heq
    simp [h]
  · rw [if_neg heq, if_neg (Ne.symm heq), ← Array.getD_eq_getD_getElem?]
    rfl

/-- A key that is not found has no record. -/
theorem not_mem_of_lookup {records : List (K × Nat)} {key : K}
    (h : records.lookup key = none) (flight : Nat) : (key, flight) ∉ records := by
  intro hmem
  rw [List.lookup_eq_none_iff] at h
  simpa using h _ hmem

/-- What asking for a key does: it joins the flight on record, or a new flight begins. -/
theorem enter_cases (table : FlightTable K R) (key : K) :
    (∃ flight, (key, flight) ∈ table.records ∧
      table.enter key = (.wait flight, { table with waits := table.waits + 1 })) ∨
    ((∀ flight, (key, flight) ∉ table.records) ∧
      table.enter key = (.lead table.flights.size,
        { table with
          records := table.records ++ [(key, table.flights.size)]
          flights := table.flights.push .aloft
          executions := table.executions + 1 })) := by
  unfold enter
  cases h : table.records.lookup key with
  | some flight => exact .inl ⟨flight, mem_of_lookup h, rfl⟩
  | none => exact .inr ⟨not_mem_of_lookup h, rfl⟩

end FlightTable

end ReadThrough
