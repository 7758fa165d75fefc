import ReadThrough.Proofs.Flight.Settling
import ReadThrough.Proofs.Shares

/-!
# The calls on one key

What is on one key among calls, with its calls and flights numbered anew, is a machine of calls of
its own (`slice`). A transition of a call on that key is the transition of that call there, and a
transition of another call leaves it as it is. Only the number of waits cannot be read off the calls
on the key, and is given beside them.
-/

namespace ReadThrough

variable {K R : Type}

/-! ## Slices -/

/-- The flight that a call leads, settles or waits on. -/
def Call.flight? (call : Call K R) : Option Nat :=
  match call.stage with
  | .leading flight | .closing flight _ | .waiting flight => some flight
  | .entering | .returned _ | .dropped => none

/-- A stage with its flight numbered anew. -/
def CallStage.renumber (number : Nat → Nat) : CallStage R → CallStage R
  | .leading flight => .leading (number flight)
  | .closing flight ending => .closing (number flight) ending
  | .waiting flight => .waiting (number flight)
  | .entering => .entering
  | .returned result => .returned result
  | .dropped => .dropped

/-- A call with its flight numbered anew. -/
def Call.renumber (number : Nat → Nat) (call : Call K R) : Call K R :=
  { call with stage := call.stage.renumber number }

@[simp] theorem Call.stage_renumber (number : Nat → Nat) (call : Call K R) :
    (call.renumber number).stage = call.stage.renumber number := rfl

@[simp] theorem Call.key_renumber (number : Nat → Nat) (call : Call K R) :
    (call.renumber number).key = call.key := rfl

@[simp] theorem Call.cancelled_renumber (number : Nat → Nat) (call : Call K R) :
    (call.renumber number).cancelled = call.cancelled := rfl

@[simp] theorem Call.delivered_renumber (number : Nat → Nat) (call : Call K R) :
    (call.renumber number).delivered = call.delivered := rfl

@[simp] theorem Call.pending_renumber (number : Nat → Nat) (call : Call K R) :
    (call.renumber number).pending = call.pending := by
  unfold Call.pending Call.renumber CallStage.renumber
  cases call.stage <;> rfl

@[simp] theorem Call.result?_renumber (number : Nat → Nat) (call : Call K R) :
    (call.renumber number).result? = call.result? := by
  unfold Call.result? Call.renumber CallStage.renumber
  cases call.stage <;> rfl

variable [BEq K]

/-- What is on one key in a table, given the keys of the flights. -/
def FlightTable.slice (table : FlightTable K R) (leaders : List (Option K)) (key : K)
    (waits : Nat) : FlightTable K R where
  records := (table.records.filter fun record ↦ record.1 == key).map fun record ↦
    (record.1, rank (some key) leaders record.2)
  flights := (share (some key) leaders table.flights.toList).toArray
  executions := leaders.count (some key)
  waits := waits

namespace Calls

/-- The keys of the flights, in the order in which they began. -/
def leaders (state : Calls K R) : List (Option K) :=
  state.started.toList.map fun number ↦ state.keys[number]?

/-- What is on one key among calls. -/
def slice (state : Calls K R) (key : K) (waits : Nat) : Calls K R where
  table := state.table.slice state.leaders key waits
  calls := ((share key state.keys state.calls.toList).map
    (Call.renumber (rank (some key) state.leaders))).toArray
  started := (ranks key state.keys state.started.toList).toArray
  returned := (ranks key state.keys state.returned.toList).toArray

/-- The flights on record and those of the calls are led by calls for the same key. -/
structure Sorted (state : Calls K R) : Prop where
  size : state.leaders.length = state.table.flights.size
  calls : ∀ (number : Nat) (call : Call K R) (flight : Nat), state.calls[number]? = some call →
    call.flight? = some flight → state.leaders[flight]? = some (some call.key)
  records : ∀ (key : K) (flight : Nat), (key, flight) ∈ state.table.records →
    state.leaders[flight]? = some (some key)

end Calls

/-! ## Tables -/

namespace FlightTable

variable [LawfulBEq K] {table : FlightTable K R} {leaders : List (Option K)} {key other : K}
  {waits flight : Nat}

theorem lookup_slice (table : FlightTable K R) (leaders : List (Option K)) (key : K) (waits : Nat) :
    (table.slice leaders key waits).records.lookup key =
      (table.records.lookup key).map (rank (some key) leaders) := by
  rw [slice]
  dsimp only
  induction table.records with
  | nil => rfl
  | cons record records ih =>
      obtain ⟨other, flight⟩ := record
      by_cases heq : other = key
      · subst heq
        simp
      · have hne : (key == other) = false := beq_eq_false_iff_ne.2 (Ne.symm heq)
        rw [List.filter_cons_of_neg (by simpa using heq), ih, List.lookup_cons, hne]

omit [LawfulBEq K] in
theorem slice_erase (table : FlightTable K R) (leaders : List (Option K)) (key : K) (waits : Nat) :
    (table.erase key).slice leaders key waits = (table.slice leaders key waits).erase key := by
  have hnone : (table.erase key).records.filter (fun record ↦ record.1 == key) = [] := by
    simp [erase, List.filter_filter]
  simp only [slice, hnone, List.map_nil]
  simp [erase, List.filter_map, Function.comp_def, List.filter_filter]

theorem slice_erase_of_ne (h : other ≠ key) :
    (table.erase other).slice leaders key waits = table.slice leaders key waits := by
  have hsame : (table.erase other).records.filter (fun record ↦ record.1 == key) =
      table.records.filter fun record ↦ record.1 == key := by
    rw [erase, List.filter_filter]
    refine List.filter_congr fun record _ ↦ ?_
    by_cases heq : record.1 = key
    · simp [heq, Ne.symm h]
    · simp [heq]
  simp only [slice, hsame]
  rfl

theorem slice_resolve (table : FlightTable K R) (waits : Nat)
    (h : leaders[flight]? = some (some key)) (status : Flight R) :
    (table.resolve flight status).slice leaders key waits =
      (table.slice leaders key waits).resolve (rank (some key) leaders flight) status := by
  simp only [slice, resolve, Array.toList_setIfInBounds, List.setIfInBounds_toArray, share_set h]

theorem slice_resolve_of_ne (table : FlightTable K R) (waits : Nat)
    (h : leaders[flight]? = some (some other)) (hne : other ≠ key)
    (status : Flight R) :
    (table.resolve flight status).slice leaders key waits = table.slice leaders key waits := by
  have hother : some other ≠ some key := by simpa using hne
  simp only [slice, resolve, Array.toList_setIfInBounds, share_set_of_ne h hother]

theorem status_slice (table : FlightTable K R) (waits : Nat)
    (h : leaders[flight]? = some (some key)) :
    (table.slice leaders key waits).status (rank (some key) leaders flight) =
      table.status flight := by
  simp only [status, slice, Array.getD_eq_getD_getElem?, List.getElem?_toArray, getElem?_share h,
    Array.getElem?_toList]

/-- The table once a flight for a key has begun. -/
def led (table : FlightTable K R) (key : K) : FlightTable K R :=
  { table with
    records := table.records ++ [(key, table.flights.size)]
    flights := table.flights.push .aloft
    executions := table.executions + 1 }

omit [LawfulBEq K] in
/-- Flights that begin later do not change the numbers of those on record. -/
theorem records_slice_append (key : K) (waits : Nat)
    (h : ∀ key flight, (key, flight) ∈ table.records → flight < leaders.length)
    (new : Option K) :
    (table.slice (leaders ++ [new]) key waits).records =
      (table.slice leaders key waits).records := by
  refine List.map_congr_left fun record hmem ↦ ?_
  have hlt := h record.1 record.2 (List.mem_filter.1 hmem).1
  rw [rank_append (Nat.le_of_lt hlt)]

theorem slice_led (hsize : leaders.length = table.flights.size)
    (h : ∀ key flight, (key, flight) ∈ table.records → flight < leaders.length) :
    (table.led key).slice (leaders ++ [some key]) key waits =
      (table.slice leaders key waits).led key := by
  have hflights : leaders.length = table.flights.toList.length := by simpa using hsize
  have hnew : rank (some key) (leaders ++ [some key]) table.flights.size =
      (share (some key) leaders table.flights.toList).length := by
    rw [← hsize, rank_append (Nat.le_refl _), rank_of_le (Nat.le_refl _), length_share hflights]
  have hrecords := records_slice_append key waits h (some key)
  simp only [slice] at hrecords
  simp [slice, led, hrecords, hnew, share_append hflights, List.count_append]

theorem slice_led_of_ne (hsize : leaders.length = table.flights.size)
    (h : ∀ key flight, (key, flight) ∈ table.records → flight < leaders.length)
    (hne : other ≠ key) :
    (table.led other).slice (leaders ++ [some other]) key waits =
      table.slice leaders key waits := by
  have hflights : leaders.length = table.flights.toList.length := by simpa using hsize
  have hrecords := records_slice_append key waits h (some other)
  simp only [slice] at hrecords
  simp [slice, led, hrecords, hne, share_append hflights, List.count_append]

end FlightTable

/-! ## Calls -/

namespace Calls

variable {state : Calls K R} {number : Nat} {call : Call K R} {key : K} {waits : Nat}

omit [BEq K] in
theorem getElem?_keys (hcall : state.calls[number]? = some call) :
    state.keys[number]? = some call.key := by
  rw [keys, List.getElem?_map, Array.getElem?_toList, hcall]
  rfl

omit [BEq K] in
theorem keys_modify (state : Calls K R) (number : Nat) (change : Call K R → Call K R)
    (h : ∀ call, (change call).key = call.key) :
    ({ state with calls := state.calls.modify number change } : Calls K R).keys = state.keys := by
  refine List.ext_getElem? fun other ↦ ?_
  simp only [keys, List.getElem?_map, Array.getElem?_toList, Array.getElem?_modify]
  split
  · cases state.calls[other]? with
    | none => rfl
    | some call => simp [h]
  · rfl

omit [BEq K] in
theorem keys_setStage (number : Nat) (stage : CallStage R) :
    (state.setStage number stage).keys = state.keys :=
  keys_modify state number _ fun _ ↦ rfl

variable [LawfulBEq K]

/-- A call on a key stands in the slice of the key. -/
theorem getElem?_slice (waits : Nat) (hcall : state.calls[number]? = some call)
    (hkey : call.key = key) :
    (state.slice key waits).calls[rank key state.keys number]? =
      some (call.renumber (rank (some key) state.leaders)) := by
  have hkeys : state.keys[number]? = some key := hkey ▸ getElem?_keys hcall
  rw [slice, List.getElem?_toArray, List.getElem?_map, getElem?_share hkeys, Array.getElem?_toList,
    hcall]
  rfl

omit [LawfulBEq K] in
/-- As many calls stand in the slice of a key as there are on the key. -/
theorem size_slice (state : Calls K R) (key : K) (waits : Nat) :
    (state.slice key waits).calls.size = state.keys.count key := by
  rw [slice, List.size_toArray, List.length_map, length_share (by simp [keys])]

/-- A change of one call on a key is a change of that call in the slice. -/
theorem slice_modify (hkeys : state.keys[number]? = some key)
    (change renumbered : Call K R → Call K R) (hkeep : ∀ call, (change call).key = call.key)
    (hchange : ∀ call, (change call).renumber (rank (some key) state.leaders) =
      renumbered (call.renumber (rank (some key) state.leaders))) :
    ({ state with calls := state.calls.modify number change } : Calls K R).slice key waits =
      { state.slice key waits with
        calls := (state.slice key waits).calls.modify (rank key state.keys number)
          renumbered } := by
  have hsame := keys_modify state number change hkeep
  simp only [slice, leaders, hsame, Array.toList_modify, share_modify hkeys]
  congr 1
  refine Array.ext_getElem? fun other ↦ ?_
  simp only [List.getElem?_toArray, List.getElem?_map, List.getElem?_modify, Array.getElem?_modify]
  cases (share key state.keys state.calls.toList)[other]? with
  | none => split <;> rfl
  | some call =>
      split
      · exact congrArg some (hchange call)
      · rfl

/-- A change of one call leaves the slices of other keys as they are. -/
theorem slice_modify_of_ne {other : K} (hkeys : state.keys[number]? = some other)
    (hne : other ≠ key) (change : Call K R → Call K R)
    (hkeep : ∀ call, (change call).key = call.key) :
    ({ state with calls := state.calls.modify number change } : Calls K R).slice key waits =
      state.slice key waits := by
  have hsame := keys_modify state number change hkeep
  simp only [slice, leaders, hsame, Array.toList_modify, share_modify_of_ne hkeys hne]

theorem slice_setStage (hkeys : state.keys[number]? = some key) (stage : CallStage R) :
    (state.setStage number stage).slice key waits =
      (state.slice key waits).setStage (rank key state.keys number)
        (stage.renumber (rank (some key) state.leaders)) :=
  slice_modify hkeys _ _ (fun _ ↦ rfl) fun _ ↦ rfl

theorem slice_setStage_of_ne {other : K} (hkeys : state.keys[number]? = some other)
    (hne : other ≠ key) (stage : CallStage R) :
    (state.setStage number stage).slice key waits = state.slice key waits :=
  slice_modify_of_ne hkeys hne _ fun _ ↦ rfl

omit [LawfulBEq K] in
theorem slice_returned (state : Calls K R) (key : K) (waits : Nat) (returned : Array Nat) :
    ({ state with returned } : Calls K R).slice key waits =
      { state.slice key waits with
        returned := (ranks key state.keys returned.toList).toArray } := rfl

theorem slice_finish (hcall : state.calls[number]? = some call) (hkey : call.key = key)
    (result : CallResult R) :
    (state.finish number result).slice key waits =
      (state.slice key waits).finish (rank key state.keys number) result := by
  have hkeys : state.keys[number]? = some key := hkey ▸ getElem?_keys hcall
  have hsame : (state.setStage number (.returned result)).keys = state.keys :=
    keys_setStage number _
  rw [finish, slice_returned, slice_setStage hkeys, Array.toList_push, hsame,
    ranks_append, ranks_self hkeys]
  simp [finish, slice, setStage, CallStage.renumber]

theorem slice_finish_of_ne (hcall : state.calls[number]? = some call) (hne : call.key ≠ key)
    (result : CallResult R) :
    (state.finish number result).slice key waits = state.slice key waits := by
  have hsame : (state.setStage number (.returned result)).keys = state.keys :=
    keys_setStage number _
  rw [finish, slice_returned, slice_setStage_of_ne (getElem?_keys hcall) hne, Array.toList_push,
    hsame, ranks_append, ranks_of_ne (getElem?_keys hcall) hne, List.append_nil]
  rfl

/-! ## Flights that begin -/

/-- The calls and their table once the work of a call was started and its flight has begun. -/
def begun (state : Calls K R) (number : Nat) (key : K) : Calls K R :=
  { state with table := state.table.led key, started := state.started.push number }

namespace Sorted

variable (h : Sorted state)
include h

omit [BEq K] [LawfulBEq K] in
theorem record_lt {flight : Nat} (hmem : (key, flight) ∈ state.table.records) :
    flight < state.leaders.length :=
  (List.getElem?_eq_some_iff.1 (h.records key flight hmem)).1

omit [LawfulBEq K] in
/-- Flights that begin later do not change the numbers of those that calls have. -/
theorem renumber_append (new : Option K) :
    (share key state.keys state.calls.toList).map
        (Call.renumber (rank (some key) (state.leaders ++ [new]))) =
      (share key state.keys state.calls.toList).map
        (Call.renumber (rank (some key) state.leaders)) := by
  refine List.map_congr_left fun call hmem ↦ ?_
  obtain ⟨number, hcall⟩ := List.mem_iff_getElem?.1 (mem_of_mem_share hmem)
  rw [Array.getElem?_toList] at hcall
  have hrank : ∀ flight, call.flight? = some flight →
      rank (some key) (state.leaders ++ [new]) flight = rank (some key) state.leaders flight :=
    fun flight hflight ↦ rank_append
      (Nat.le_of_lt (List.getElem?_eq_some_iff.1 (h.calls number call flight hcall hflight)).1) _
  unfold Call.renumber CallStage.renumber
  cases hstage : call.stage with
  | leading flight | closing flight | waiting flight =>
      simp only [hrank flight (by simp [Call.flight?, hstage])]
  | entering | returned | dropped => rfl

end Sorted

omit [BEq K] [LawfulBEq K] in
theorem leaders_begun (hcall : state.calls[number]? = some call) (key : K) :
    (state.begun number key).leaders = state.leaders ++ [some call.key] := by
  simp only [leaders, begun, Array.toList_push, List.map_append, List.map_cons, List.map_nil]
  exact congrArg (state.leaders ++ [·]) (getElem?_keys hcall)

omit [LawfulBEq K] in
/-- The parts of a slice after a flight has begun. -/
theorem slice_begun_eq (hcall : state.calls[number]? = some call) (key other : K) (waits : Nat) :
    (state.begun number other).slice key waits =
      { table := (state.table.led other).slice (state.leaders ++ [some call.key]) key waits
        calls := ((share key state.keys state.calls.toList).map
          (Call.renumber (rank (some key) (state.leaders ++ [some call.key])))).toArray
        started := (ranks key state.keys (state.started.toList ++ [number])).toArray
        returned := (ranks key state.keys state.returned.toList).toArray } := by
  have hstarted : state.started.toList ++ [number] = (state.started.push number).toList :=
    Array.toList_push.symm
  rw [slice, leaders_begun hcall other, hstarted]
  rfl

theorem slice_begun (h : Sorted state) (hcall : state.calls[number]? = some call)
    (hkey : call.key = key) :
    (state.begun number key).slice key waits =
      (state.slice key waits).begun (rank key state.keys number) key := by
  have hlt : ∀ other flight, (other, flight) ∈ state.table.records →
      flight < state.leaders.length := fun _ _ ↦ h.record_lt
  rw [slice_begun_eq hcall, hkey, h.renumber_append, FlightTable.slice_led h.size hlt,
    ranks_append, ranks_self (hkey ▸ getElem?_keys hcall)]
  simp only [begun, slice, List.push_toArray]

theorem slice_begun_of_ne (h : Sorted state) (hcall : state.calls[number]? = some call)
    (hne : call.key ≠ key) :
    (state.begun number call.key).slice key waits = state.slice key waits := by
  have hlt : ∀ other flight, (other, flight) ∈ state.table.records →
      flight < state.leaders.length := fun _ _ ↦ h.record_lt
  rw [slice_begun_eq hcall, h.renumber_append, FlightTable.slice_led_of_ne h.size hlt hne,
    ranks_append, ranks_of_ne (getElem?_keys hcall) hne, List.append_nil]
  rfl

/-! ## Transitions -/

/-- A transition of a call is one on the slice of its key, and touches no other slice. -/
structure Local (step : Calls K R → Nat → Option (Calls K R)) (state : Calls K R) (number : Nat)
    (call : Call K R) : Prop where
  own : ∀ waits, step (state.slice call.key waits) (rank call.key state.keys number) =
    (step state number).map fun after ↦
      after.slice call.key (waits + (after.table.waits - state.table.waits))
  keys : ∀ after, step state number = some after → after.keys = state.keys
  waits : ∀ after, step state number = some after → state.table.waits ≤ after.table.waits
  others : ∀ after, step state number = some after → ∀ key, call.key ≠ key → ∀ waits,
    after.slice key waits = state.slice key waits

namespace Local

variable {first second : Calls K R → Nat → Option (Calls K R)}

omit [LawfulBEq K] in
theorem orElse (h : Local first state number call) (h' : Local second state number call) :
    Local (fun state number ↦ first state number <|> second state number) state number call := by
  have hcases : ∀ after, (first state number <|> second state number) = some after →
      first state number = some after ∨ second state number = some after := by
    intro after heq
    cases hfirst : first state number with
    | none => exact .inr (by simpa [hfirst] using heq)
    | some other => exact .inl (by simpa [hfirst] using heq)
  refine ⟨fun waits ↦ ?_, fun after heq ↦ ?_, fun after heq ↦ ?_, fun after heq ↦ ?_⟩
  · rw [h.own, h'.own]
    cases first state number <;> rfl
  · exact (hcases after heq).elim (h.keys after) (h'.keys after)
  · exact (hcases after heq).elim (h.waits after) (h'.waits after)
  · exact (hcases after heq).elim (h.others after) (h'.others after)

omit [LawfulBEq K] in
theorem bind (h : Local first state number call)
    (h' : ∀ middle, first state number = some middle → ∃ after, after.key = call.key ∧
      Local second middle number after) :
    Local (fun state number ↦ (first state number).bind (second · number)) state number call := by
  have hcases : ∀ after, (first state number).bind (second · number) = some after →
      ∃ middle, first state number = some middle ∧ second middle number = some after :=
    fun _ ↦ Option.bind_eq_some_iff.1
  refine ⟨fun waits ↦ ?_, fun after heq ↦ ?_, fun after heq ↦ ?_, fun after heq key hne waits ↦ ?_⟩
  · rw [h.own]
    cases hfirst : first state number with
    | none => rfl
    | some middle =>
        obtain ⟨found, hkey, hlocal⟩ := h' middle hfirst
        have hsecond := hlocal.own (waits + (middle.table.waits - state.table.waits))
        rw [hkey, h.keys middle hfirst] at hsecond
        rw [Option.map_some, Option.bind_some, Option.bind_some, hsecond]
        refine Option.map_congr fun after hafter ↦ ?_
        have hle := h.waits middle hfirst
        have hle' := hlocal.waits after hafter
        congr 1
        omega
  · obtain ⟨middle, hfirst, hsecond⟩ := hcases after heq
    obtain ⟨found, -, hlocal⟩ := h' middle hfirst
    exact (hlocal.keys after hsecond).trans (h.keys middle hfirst)
  · obtain ⟨middle, hfirst, hsecond⟩ := hcases after heq
    obtain ⟨found, -, hlocal⟩ := h' middle hfirst
    exact Nat.le_trans (h.waits middle hfirst) (hlocal.waits after hsecond)
  · obtain ⟨middle, hfirst, hsecond⟩ := hcases after heq
    obtain ⟨found, hkey, hlocal⟩ := h' middle hfirst
    exact (hlocal.others after hsecond key (hkey ▸ hne) waits).trans
      (h.others middle hfirst key hne waits)

omit [LawfulBEq K] in
/-- A transition that is not possible, and is not in the slice. -/
theorem of_none {step : Calls K R → Nat → Option (Calls K R)} (h : step state number = none)
    (hslice : ∀ waits, step (state.slice call.key waits) (rank call.key state.keys number) = none) :
    Local step state number call := by
  refine ⟨fun waits ↦ by rw [h, hslice, Option.map_none], ?_, ?_, ?_⟩
  all_goals
    intro after heq
    rw [h] at heq
    cases heq

omit [LawfulBEq K] in
/-- A transition that is possible and leaves the number of waits. -/
theorem of_some {step : Calls K R → Nat → Option (Calls K R)} (after : Calls K R)
    (h : step state number = some after)
    (hslice : ∀ waits, step (state.slice call.key waits) (rank call.key state.keys number) =
      some (after.slice call.key waits))
    (hkeys : after.keys = state.keys) (hwaits : after.table.waits = state.table.waits)
    (hothers : ∀ key, call.key ≠ key → ∀ waits, after.slice key waits = state.slice key waits) :
    Local step state number call := by
  refine ⟨fun waits ↦ ?_, ?_, ?_, ?_⟩
  · rw [h, hslice, Option.map_some, hwaits, Nat.sub_self, Nat.add_zero]
  all_goals
    intro other heq
    rw [h] at heq
    cases heq
  · exact hkeys
  · exact Nat.le_of_eq hwaits.symm
  · exact hothers

end Local

omit [LawfulBEq K] in
/-- A change of the table is one of what is on a key in it. -/
theorem slice_table (state : Calls K R) {table changed : FlightTable K R}
    (htable : table.slice state.leaders key waits = changed) :
    ({ state with table } : Calls K R).slice key waits =
      { state.slice key waits with table := changed } := by
  rw [← htable]
  rfl

omit [LawfulBEq K] in
theorem enter?_eq (hcall : state.calls[number]? = some call) :
    state.enter? number =
      match call.stage, state.table.records.lookup call.key with
      | .entering, some flight =>
          some (({ state with table := { state.table with waits := state.table.waits + 1 } } :
            Calls K R).setStage number (.waiting flight))
      | .entering, none =>
          some ((state.begun number call.key).setStage number (.leading state.table.flights.size))
      | _, _ => none := by
  simp only [enter?, hcall, bind, Option.bind_some, FlightTable.enter]
  cases call.stage with
  | entering => cases state.table.records.lookup call.key <;> rfl
  | leading | closing | waiting | returned | dropped => rfl

/-- A call asks the table for its key as it does in the slice. -/
theorem Sorted.local_enter? (h : Sorted state) (hcall : state.calls[number]? = some call) :
    Local enter? state number call := by
  have hkeys : state.keys[number]? = some call.key := getElem?_keys hcall
  have henter := enter?_eq hcall
  have hslice := fun waits ↦ enter?_eq (getElem?_slice waits hcall rfl)
  have hlookup : ∀ waits, (state.slice call.key waits).table.records.lookup call.key =
      (state.table.records.lookup call.key).map (rank (some call.key) state.leaders) :=
    FlightTable.lookup_slice state.table state.leaders call.key
  simp only [Call.stage_renumber, Call.key_renumber, hlookup] at hslice
  cases hstage : call.stage with
  | entering =>
      cases hrecord : state.table.records.lookup call.key with
      | some flight =>
          simp only [hstage, hrecord, CallStage.renumber, Option.map_some] at henter hslice
          refine ⟨fun waits ↦ ?_, ?_, ?_, ?_⟩
          · have hgain : waits + (state.table.waits + 1 - state.table.waits) = waits + 1 := by omega
            rw [hslice, henter, Option.map_some, slice_setStage (by exact hkeys)]
            simp only [setStage, hgain]
            rfl
          all_goals
            intro after hafter
            obtain rfl := Option.some.inj (henter.symm.trans hafter)
          · exact keys_setStage ..
          · exact Nat.le_succ _
          · exact fun key hne waits ↦ slice_setStage_of_ne (by exact hkeys) hne _
      | none =>
          simp only [hstage, hrecord, CallStage.renumber, Option.map_none] at henter hslice
          refine .of_some _ henter (fun waits ↦ ?_) (keys_setStage ..) rfl fun key hne waits ↦ ?_
          · have hnew : rank (some call.key) (state.begun number call.key).leaders
                state.table.flights.size = (state.slice call.key waits).table.flights.size := by
              have hsize : state.leaders.length = state.table.flights.toList.length := by
                simpa using h.size
              rw [leaders_begun hcall, ← h.size, rank_append (Nat.le_refl _),
                rank_of_le (Nat.le_refl _), ← length_share hsize]
              rfl
            rw [hslice, slice_setStage (by exact hkeys), CallStage.renumber, hnew,
              slice_begun h hcall rfl]
            rfl
          · rw [slice_setStage_of_ne (by exact hkeys) hne, slice_begun_of_ne h hcall hne]
  | leading | closing | waiting | returned | dropped =>
      simp only [hstage] at henter
      simp only [hstage, CallStage.renumber] at hslice
      exact .of_none henter hslice

/-- A leader takes its record away as it does in the slice. -/
theorem local_release? (hcall : state.calls[number]? = some call)
    {reason : Call K R → Option (Ending R)}
    (hreason : ∀ renumber, reason (call.renumber renumber) = reason call) :
    Local (fun state number ↦ state.release? number reason) state number call := by
  have hkeys : state.keys[number]? = some call.key := getElem?_keys hcall
  have hslice := fun waits ↦ getElem?_slice waits hcall rfl
  cases hstage : call.stage with
  | leading flight =>
      cases hending : reason call with
      | none =>
          refine .of_none ?_ fun waits ↦ ?_
          · simp [release?, hcall, hstage, hending]
          · simp [release?, hslice, hstage, CallStage.renumber, hreason, hending]
      | some ending =>
          refine .of_some (({ state with table := state.table.erase call.key } :
            Calls K R).setStage number (.closing flight ending)) ?_ (fun waits ↦ ?_)
              (keys_setStage ..) rfl fun key hne waits ↦ ?_
          · simp [release?, hcall, hstage, hending]
          · rw [slice_setStage (by exact hkeys), slice_table _ (FlightTable.slice_erase ..)]
            simp [release?, hslice, hstage, CallStage.renumber, hreason, hending]
            rfl
          · rw [slice_setStage_of_ne (by exact hkeys) hne,
              slice_table _ (FlightTable.slice_erase_of_ne hne)]
            rfl
  | entering | closing | waiting | returned | dropped =>
      refine .of_none ?_ fun waits ↦ ?_
      · simp [release?, hcall, hstage]
      · simp [release?, hslice, hstage, CallStage.renumber]

/-- A leader whose record is gone tells what became of its flight as it does in the slice. -/
theorem Sorted.local_close? (h : Sorted state) (hcall : state.calls[number]? = some call) :
    Local close? state number call := by
  have hkeys : state.keys[number]? = some call.key := getElem?_keys hcall
  have hslice := fun waits ↦ getElem?_slice waits hcall rfl
  cases hstage : call.stage with
  | closing flight ending =>
      have hled := h.calls number call flight hcall (by simp [Call.flight?, hstage])
      have hown := fun waits ↦ slice_table state
        (FlightTable.slice_resolve state.table waits hled ending.status)
      have hothers := fun key (hne : call.key ≠ key) waits ↦ slice_table state
        (FlightTable.slice_resolve_of_ne state.table waits hled hne
          ending.status)
      cases hresult : ending.result? with
      | some result =>
          refine .of_some (({ state with
            table := state.table.resolve flight ending.status } : Calls K R).finish number result)
              ?_ (fun waits ↦ ?_) (keys_setStage ..) rfl fun key hne waits ↦ ?_
          · simp [close?, hcall, hstage, hresult]
          · rw [slice_finish (by exact hcall) rfl, hown]
            simp [close?, hslice, hstage, CallStage.renumber, hresult]
            rfl
          · rw [slice_finish_of_ne (by exact hcall) hne, hothers key hne]
            rfl
      | none =>
          refine .of_some (({ state with
            table := state.table.resolve flight ending.status } : Calls K R).setStage number
              .dropped) ?_ (fun waits ↦ ?_) (keys_setStage ..) rfl fun key hne waits ↦ ?_
          · simp [close?, hcall, hstage, hresult]
          · rw [slice_setStage (by exact hkeys), hown]
            simp [close?, hslice, hstage, CallStage.renumber, hresult]
            rfl
          · rw [slice_setStage_of_ne (by exact hkeys) hne, hothers key hne]
            rfl
  | entering | leading | waiting | returned | dropped =>
      refine .of_none ?_ fun waits ↦ ?_
      · simp [close?, hcall, hstage]
      · simp [close?, hslice, hstage, CallStage.renumber]

/-- A call that waits sees the same become of its flight as in the slice. -/
theorem Sorted.local_attend? (h : Sorted state) (hcall : state.calls[number]? = some call) :
    Local attend? state number call := by
  have hkeys : state.keys[number]? = some call.key := getElem?_keys hcall
  have hslice := fun waits ↦ getElem?_slice waits hcall rfl
  cases hstage : call.stage with
  | waiting flight =>
      have hled := h.calls number call flight hcall (by simp [Call.flight?, hstage])
      have hstatus := fun waits ↦
        FlightTable.status_slice state.table waits hled
      have htable : ∀ waits, (state.slice call.key waits).table =
        state.table.slice state.leaders call.key waits := fun _ ↦ rfl
      cases hflight : state.table.status flight with
      | landed answer =>
          refine .of_some (state.finish number (.outcome answer)) ?_ (fun waits ↦ ?_)
            (keys_setStage ..) rfl fun key hne waits ↦ slice_finish_of_ne hcall hne _
          · simp [attend?, hcall, hstage, hflight]
          · rw [slice_finish hcall rfl]
            simp [attend?, hslice, hstage, CallStage.renumber, htable, hstatus, hflight]
      | lost =>
          refine .of_some (state.setStage number .entering) ?_ (fun waits ↦ ?_)
            (keys_setStage ..) rfl fun key hne waits ↦ slice_setStage_of_ne hkeys hne _
          · simp [attend?, hcall, hstage, hflight]
          · rw [slice_setStage hkeys]
            simp [attend?, hslice, hstage, CallStage.renumber, htable, hstatus, hflight]
      | aloft =>
          refine .of_none ?_ fun waits ↦ ?_
          · simp [attend?, hcall, hstage, hflight]
          · simp [attend?, hslice, hstage, CallStage.renumber, htable, hstatus, hflight]
  | entering | leading | closing | returned | dropped =>
      refine .of_none ?_ fun waits ↦ ?_
      · simp [attend?, hcall, hstage]
      · simp [attend?, hslice, hstage, CallStage.renumber]

/-- A call that waits notices that its token fired as it does in the slice. -/
theorem local_leave? (hcall : state.calls[number]? = some call) :
    Local leave? state number call := by
  have hslice := fun waits ↦ getElem?_slice waits hcall rfl
  cases hstage : call.stage with
  | waiting flight =>
      cases hcancelled : call.cancelled with
      | true =>
          refine .of_some (state.finish number .cancelled) ?_ (fun waits ↦ ?_)
            (keys_setStage ..) rfl fun key hne waits ↦ slice_finish_of_ne hcall hne _
          · simp [leave?, hcall, hstage, hcancelled]
          · rw [slice_finish hcall rfl]
            simp [leave?, hslice, hstage, CallStage.renumber, hcancelled]
      | false =>
          refine .of_none ?_ fun waits ↦ ?_
          · simp [leave?, hcall, hstage, hcancelled]
          · simp [leave?, hslice, hstage, CallStage.renumber, hcancelled]
  | entering | leading | closing | returned | dropped =>
      refine .of_none ?_ fun waits ↦ ?_
      · simp [leave?, hcall, hstage]
      · simp [leave?, hslice, hstage, CallStage.renumber]

/-- A call that does not lead is given up as it is in the slice. -/
theorem local_forsake? (hcall : state.calls[number]? = some call) :
    Local forsake? state number call := by
  have hkeys : state.keys[number]? = some call.key := getElem?_keys hcall
  have hslice := fun waits ↦ getElem?_slice waits hcall rfl
  cases hstage : call.stage with
  | entering | waiting =>
      refine .of_some (state.setStage number .dropped) ?_ (fun waits ↦ ?_)
        (keys_setStage ..) rfl fun key hne waits ↦ slice_setStage_of_ne hkeys hne _
      · simp [forsake?, hcall, hstage]
      · rw [slice_setStage hkeys]
        simp [forsake?, hslice, hstage, CallStage.renumber]
  | leading | closing | returned | dropped =>
      refine .of_none ?_ fun waits ↦ ?_
      · simp [forsake?, hcall, hstage]
      · simp [forsake?, hslice, hstage, CallStage.renumber]

/-- A token that fires, fires in the slice of its call. -/
theorem local_cancel (hcall : state.calls[number]? = some call) :
    Local (fun state number ↦ some (state.cancel number)) state number call :=
  have hkeys : state.keys[number]? = some call.key := getElem?_keys hcall
  let fire (call : Call K R) : Call K R := { call with cancelled := true }
  .of_some _ rfl
    (fun _ ↦ congrArg some (slice_modify hkeys fire fire (fun _ ↦ rfl) fun _ ↦ rfl).symm)
    (keys_modify _ _ fire fun _ ↦ rfl) rfl
    fun _ hne _ ↦ slice_modify_of_ne hkeys hne fire fun _ ↦ rfl

/-- An answer that is delivered to a call is delivered in its slice. -/
theorem local_deliver (hcall : state.calls[number]? = some call) (answer : R) :
    Local (fun state number ↦ some (state.deliver number answer).2) state number call := by
  have hkeys : state.keys[number]? = some call.key := getElem?_keys hcall
  have hslice := fun waits ↦ getElem?_slice waits hcall rfl
  let take (call : Call K R) : Call K R := { call with delivered := some answer }
  by_cases htakes : (call.pending && call.delivered.isNone) = true
  · refine .of_some ({ state with calls := state.calls.modify number take }) ?_
      (fun waits ↦ ?_) (keys_modify _ _ take fun _ ↦ rfl) rfl
      fun _ hne _ ↦ slice_modify_of_ne hkeys hne take fun _ ↦ rfl
    · simp only [deliver, hcall, htakes, if_true]
      rfl
    · rw [slice_modify hkeys take take (fun _ ↦ rfl) fun _ ↦ rfl]
      simp only [deliver, hslice, Call.pending_renumber, Call.delivered_renumber, htakes, if_true]
      rfl
  · refine .of_some state ?_ (fun waits ↦ ?_) rfl rfl fun _ _ _ ↦ rfl
    · simp only [deliver, hcall, if_neg htakes]
    · simp only [deliver, hslice, Call.pending_renumber, Call.delivered_renumber, if_neg htakes]

end Calls

end ReadThrough
