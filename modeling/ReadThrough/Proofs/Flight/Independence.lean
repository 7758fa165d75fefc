import Mathlib.Logic.Function.Iterate
import ReadThrough.Proofs.Flight.Slices

/-!
# Keys are independent

Calls on one table, in a script, go on as if the calls on every key had a table of their own. The
slices of all keys are split off the whole at every point of a script (`Split`): an operation is one
on the slice of its key and none on the others, and so is the turn of a call. A round of the whole
is a round of every slice, since the calls of a key keep their order there. How many rounds a script
makes does not matter, since a round leaves calls that are still as they are.
-/

namespace ReadThrough.Calls

variable {K R : Type} [BEq K] [LawfulBEq K] {state following : Calls K R} {number : Nat}
  {call : Call K R} {names : List K} {parts parts' : K → Calls K R}

/-! ## Flights and their keys -/

omit [BEq K] [LawfulBEq K] in
theorem getElem?_leaders {flight : Nat} (hstarted : state.started[flight]? = some number)
    (hcall : state.calls[number]? = some call) :
    state.leaders[flight]? = some (some call.key) := by
  rw [leaders, List.getElem?_map, Array.getElem?_toList, hstarted, Option.map_some,
    getElem?_keys hcall]

omit [BEq K] [LawfulBEq K] in
/-- Where the keys of the calls are the same, there is a call on the same key. -/
theorem getElem?_of_keys (hcall : state.calls[number]? = some call)
    (hkeys : following.keys = state.keys) :
    ∃ found, following.calls[number]? = some found ∧ found.key = call.key := by
  have hfound : following.keys[number]? = some call.key := hkeys ▸ getElem?_keys hcall
  rwa [keys, List.getElem?_map, Array.getElem?_toList, Option.map_eq_some_iff] at hfound

omit [LawfulBEq K] in
/-- Every execution was started by a call, and only calls return. -/
theorem Move.counted (h : Move state following)
    (hcounted : state.table.executions = state.started.size ∧
      ∀ number ∈ state.returned, number < state.calls.size) :
    following.table.executions = following.started.size ∧
      ∀ number ∈ following.returned, number < following.calls.size := by
  obtain ⟨hexecutions, hreturned⟩ := hcounted
  have hfinish : ∀ {table : FlightTable K R} {number : Nat} {call : Call K R} {stage : CallStage R},
      state.calls[number]? = some call → ∀ other ∈ state.returned.push number,
        other < (({ state with table } : Calls K R).setStage number stage).calls.size := by
    intro table number call stage hcall other hmem
    rw [setStage, Array.size_modify]
    rcases Array.mem_push.1 hmem with hmem | rfl
    · exact hreturned other hmem
    · exact (Array.getElem?_eq_some_iff.1 hcall).1
  cases h with
  | began key cancelled immediate =>
      refine ⟨hexecutions, fun number hmem ↦ ?_⟩
      simpa [Calls.call] using Nat.lt_succ_of_lt (hreturned number hmem)
  | refused => exact ⟨hexecutions, hreturned⟩
  | led => exact ⟨by simp [setStage, hexecutions], by simpa [setStage] using hreturned⟩
  | delivered | fired | joined | released | vanished | readmitted | forsaken =>
      exact ⟨hexecutions, by simpa [setStage, cancel] using hreturned⟩
  | closed number call flight ending result hcall => exact ⟨hexecutions, hfinish hcall⟩
  | took number call flight value hcall => exact ⟨hexecutions, hfinish hcall⟩
  | left number call flight hcall => exact ⟨hexecutions, hfinish hcall⟩

namespace Reached

theorem counted (h : Reached state) : state.table.executions = state.started.size ∧
    ∀ number ∈ state.returned, number < state.calls.size := by
  obtain ⟨past, hhistory⟩ := h
  generalize hstates : state :: past = states at hhistory
  induction hhistory generalizing state past with
  | start =>
      cases hstates
      exact ⟨rfl, by simp [empty]⟩
  | next hpast happly ih =>
      cases hstates
      exact (act?_move happly).counted (ih _ rfl)

/-- Wherever calls can come to, flights are those of calls for one key. -/
theorem sorted (h : Reached state) : Sorted state where
  size := by
    rw [leaders, List.length_map, Array.length_toList, h.coherent.size]
  calls := by
    intro number call flight hcall hflight
    have hflying : call.flying? = some flight → state.leaders[flight]? = some (some call.key) :=
      fun hflying ↦
        getElem?_leaders ((h.coherent.fits number call hcall).flying flight hflying).1 hcall
    cases hstage : call.stage with
    | leading | closing =>
        exact hflying (by simpa [Call.flying?, Call.flight?, hstage] using hflight)
    | entering | returned | dropped => simp [Call.flight?, hstage] at hflight
    | waiting other =>
        -- a waiter met its leader earlier, when both were there for one key
        obtain rfl : other = flight := by simpa [Call.flight?, hstage] using hflight
        obtain ⟨past, hhistory⟩ := h
        obtain ⟨leader, hstarted, moment, hmem, -, met, hmet, hkey, -⟩ :=
          ((hhistory.story hcall).waits other hstage).leader hhistory
        obtain ⟨led, hled, hsame⟩ := (hhistory.later hmem).calls leader met hmet
        rw [getElem?_leaders hstarted hled, hsame, hkey]
  records := by
    intro key flight hrecord
    obtain ⟨leader, led, hled, rfl, hleading⟩ := h.coherent.led key flight hrecord
    have hflying : led.flying? = some flight := by simp [Call.flying?, hleading]
    exact getElem?_leaders ((h.coherent.fits leader led hled).flying flight hflying).1 hled

omit [LawfulBEq K] in
/-- A transition of a call by itself goes from a state that calls come to to another one. -/
theorem moved (h : Reached state) (hmove : state.move? number = some following) :
    Reached following := by
  simp only [move?, heed?, step?, Option.orElse_eq_orElse, Option.orElse_eq_or,
    Option.or_eq_some_iff, Option.bind_eq_some_iff] at hmove
  rcases hmove with (⟨middle, habandon, hclose⟩ | ⟨-, hleave⟩) |
    ⟨-, henter | ⟨-, ⟨middle, hconclude, hclose⟩ | ⟨-, hattend⟩⟩⟩
  · exact (h.next (.abandon number) habandon).next (.close number) hclose
  · exact h.next (.leave number) hleave
  · exact h.next (.enter number) henter
  · exact (h.next (.conclude number) hconclude).next (.close number) hclose
  · exact h.next (.attend number) hattend

/-! ## Turns -/

variable (h : Reached state) (hcall : state.calls[number]? = some call)
include h hcall

/-- A leader that is done tells so within its slice. -/
theorem local_done {reason : Call K R → Option (Ending R)} (action : Action K R)
    (hreason : ∀ renumber, reason (call.renumber renumber) = reason call)
    (haction : state.release? number reason = state.act? action) :
    Local (fun state number ↦ (state.release? number reason).bind (·.close? number)) state number
      call := by
  have hfirst := local_release? hcall hreason
  refine hfirst.bind fun middle hmiddle ↦ ?_
  have hreached : Reached middle := h.next action (haction ▸ hmiddle)
  obtain ⟨found, hfound, hkey⟩ := getElem?_of_keys hcall (hfirst.keys middle hmiddle)
  exact ⟨found, hkey, hreached.sorted.local_close? hfound⟩

/-- One transition of a call by itself is one in its slice. -/
theorem local_move? : Local move? state number call :=
  have habandoned := h.local_done hcall (.abandon number) (fun _ ↦ rfl) rfl
  have hconcluded := h.local_done hcall (.conclude number) (fun _ ↦ rfl) rfl
  (habandoned.orElse (local_leave? hcall)).orElse
    ((h.sorted.local_enter? hcall).orElse (hconcluded.orElse (h.sorted.local_attend? hcall)))

/-- A call that is run moves as it does in its slice. -/
theorem local_runCall (limit : Nat) :
    Local (fun state number ↦ some (runCall limit state number)) state number call := by
  induction limit generalizing state call with
  | zero => exact .of_some _ rfl (fun _ ↦ rfl) rfl rfl fun _ _ _ ↦ rfl
  | succ limit ih =>
      have hrun : (fun (state : Calls K R) number ↦ some (runCall (limit + 1) state number)) =
          fun state number ↦
            ((state.move? number).bind fun next ↦ some (runCall limit next number)) <|>
              some state := by
        funext state number
        rw [runCall]
        cases state.move? number <;> rfl
      have hmoves := h.local_move? hcall
      rw [hrun]
      refine .orElse (hmoves.bind fun next hnext ↦ ?_)
        (.of_some _ rfl (fun _ ↦ rfl) rfl rfl fun _ _ _ ↦ rfl)
      obtain ⟨found, hfound, hkey⟩ := getElem?_of_keys hcall (hmoves.keys next hnext)
      exact ⟨found, hkey, ih (h.moved hnext) hfound⟩

/-! ## Operations -/

/-- A call that is given up is given up in its slice. -/
theorem local_drop : Local (fun state number ↦ some (state.drop number)) state number call := by
  have hdrop : (fun (state : Calls K R) number ↦ some (state.drop number)) = fun state number ↦
      ((state.giveUp? number).bind (·.close? number) <|> state.forsake? number) <|>
        some state := by
    funext state number
    rw [drop]
    cases (state.giveUp? number).bind (·.close? number) <|> state.forsake? number <;> rfl
  rw [hdrop]
  have hgivenUp := h.local_done hcall (.giveUp number) (fun _ ↦ rfl) rfl
  exact (hgivenUp.orElse (local_forsake? hcall)).orElse
    (.of_some _ rfl (fun _ ↦ rfl) rfl rfl fun _ _ _ ↦ rfl)

end Reached

/-! ## Slices of all keys -/

/-- The calls on every key are apart from the others. Each of these keys is named once, and together
the calls have waited as often as all of them. -/
structure Split (names : List K) (state : Calls K R) (parts : K → Calls K R) : Prop where
  once : names.Nodup
  known : ∀ key ∈ state.keys, key ∈ names
  part : ∀ key, parts key = state.slice key (parts key).table.waits
  waits : (names.map fun key ↦ (parts key).table.waits).sum = state.table.waits

namespace Split

omit [LawfulBEq K] in
/-- What one call does is done in the slice of its key, and in no other one. -/
theorem step {step : Calls K R → Nat → Option (Calls K R)} (h : Split names state parts)
    (hcall : state.calls[number]? = some call) (hlocal : Local step state number call)
    (hstep : step state number = some following)
    (hown : step (parts call.key) (rank call.key state.keys number) = some (parts' call.key))
    (hothers : ∀ key, call.key ≠ key → parts' key = parts key) : Split names following parts' := by
  have hkeys := hlocal.keys following hstep
  have hmem : call.key ∈ names := h.known _ (List.mem_of_getElem? (getElem?_keys hcall))
  have hafter : parts' call.key = following.slice call.key
      ((parts call.key).table.waits + (following.table.waits - state.table.waits)) := by
    have hslice := hlocal.own (parts call.key).table.waits
    rw [← h.part, hown, hstep] at hslice
    exact Option.some.inj hslice
  have hgain : (parts' call.key).table.waits =
      (parts call.key).table.waits + (following.table.waits - state.table.waits) := by
    rw [hafter]
    rfl
  refine ⟨h.once, hkeys ▸ h.known, fun key ↦ ?_, ?_⟩
  · by_cases hkey : call.key = key
    · subst hkey
      rw [hgain]
      exact hafter
    · rw [hothers key hkey, hlocal.others following hstep key hkey]
      exact h.part key
  · rw [sum_map_gain h.once hmem hgain fun key hne ↦ by rw [hothers key (Ne.symm hne)], h.waits]
    have hle := hlocal.waits following hstep
    omega

/-- A call that has its turn in a round has it in the slice of its key. -/
theorem turn (h : Split names state parts) (hreached : Reached state) (hwhole : Whole state)
    (count : Nat) (hcount : count ≤ state.calls.size) :
    let after := (List.range count).foldl (runCall 3) state
    after.keys = state.keys ∧ Split names after fun key ↦
      (List.range (rank key state.keys count)).foldl (runCall 3) (parts key) := by
  induction count with
  | zero => exact ⟨rfl, h⟩
  | succ count ih =>
      obtain ⟨hkeys, hsplit⟩ := ih (Nat.le_of_succ_le hcount)
      -- the calls before this one have had their turns, which leaves a state that calls come to
      obtain ⟨hsteps, -, -⟩ := turns hreached.coherent hwhole count
      have hreached' := hreached.advances hsteps
      obtain ⟨call, hfound⟩ : ∃ call, state.calls[count]? = some call :=
        ⟨_, Array.getElem?_eq_getElem hcount⟩
      simp only [List.range_succ, List.foldl_append, List.foldl_cons, List.foldl_nil]
      generalize (List.range count).foldl (runCall 3) state = before at *
      obtain ⟨found, hcall, hkey⟩ := getElem?_of_keys hfound hkeys
      have howner : state.keys[count]? = some found.key := hkey ▸ getElem?_keys hfound
      have hlocal := hreached'.local_runCall hcall 3
      refine ⟨(hlocal.keys _ rfl).trans hkeys, hsplit.step hcall hlocal rfl ?_ fun key hne ↦ ?_⟩
      · simp only [hkeys, rank_succ howner, BEq.rfl, if_true, List.range_succ, List.foldl_append,
          List.foldl_cons, List.foldl_nil]
      · simp only [rank_succ howner, beq_eq_false_iff_ne.2 hne, Bool.false_eq_true, if_false,
          Nat.add_zero]

/-- A round of the whole is a round of each slice. -/
theorem round (h : Split names state parts) (hreached : Reached state) (hwhole : Whole state) :
    Split names state.round fun key ↦ (parts key).round := by
  obtain ⟨-, hsplit⟩ := h.turn hreached hwhole state.calls.size (Nat.le_refl _)
  have hsize : ∀ key, rank key state.keys state.calls.size = (parts key).calls.size := fun key ↦ by
    rw [h.part, size_slice, rank_of_le (by simp [keys])]
  simpa only [Calls.round, hsize] using hsplit

theorem iterate (h : Split names state parts) (hreached : Reached state) (hwhole : Whole state)
    (count : Nat) :
    Split names (Calls.round^[count] state) fun key ↦ Calls.round^[count] (parts key) := by
  induction count generalizing state parts with
  | zero => exact h
  | succ count ih =>
      obtain ⟨hsteps, hwhole', -⟩ := round_turns hreached.coherent hwhole
      exact ih (h.round hreached hwhole) (hreached.advances hsteps) hwhole'

end Split

/-! ## Rounds -/

omit [LawfulBEq K] in
theorem round_of_movable (h : state.movable = []) : state.round = state := by
  have hnone : ∀ number ∈ List.range state.calls.size, runCall 3 state number = state := by
    intro number hmem
    have hcan : ¬state.canMove number := List.filter_eq_nil_iff.1 h number hmem
    rw [runCall, Option.not_isSome_iff_eq_none.1 hcan]
  rw [round]
  generalize List.range state.calls.size = numbers at hnone
  induction numbers with
  | nil => rfl
  | cons number numbers ih =>
      rw [List.foldl_cons, hnone number List.mem_cons_self]
      exact ih fun other hmem ↦ hnone other (List.mem_cons_of_mem _ hmem)

omit [LawfulBEq K] in
theorem rounds_eq_iterate (limit : Nat) (state : Calls K R) :
    rounds limit state = Calls.round^[limit] state := by
  induction limit generalizing state with
  | zero => rfl
  | succ limit ih =>
      rw [rounds]
      split
      · next hnone =>
        rw [Function.iterate_fixed (round_of_movable (List.isEmpty_iff.1 hnone))]
      · rw [ih, Function.iterate_succ_apply]

/-- Calls that have settled go on no further, however many rounds there are. -/
theorem settle_eq_iterate (hcoherent : Coherent state) (hwhole : Whole state) {limit : Nat}
    (hlimit : 2 * state.calls.size + 2 ≤ limit) : state.settle = Calls.round^[limit] state := by
  obtain ⟨hsteps, hend, hstill⟩ := still_settle hcoherent hwhole
  have hfixed := round_of_movable (movable_of_still (gone hcoherent hsteps).coherent hend hstill)
  obtain ⟨more, rfl⟩ := Nat.exists_eq_add_of_le' hlimit
  rw [Function.iterate_add_apply, ← rounds_eq_iterate (2 * state.calls.size + 2)]
  exact (Function.iterate_fixed hfixed more).symm

theorem settle_of_still (hcoherent : Coherent state) (hwhole : Whole state) (hstill : state.Still) :
    state.settle = state := by
  rw [settle_eq_iterate hcoherent hwhole (Nat.le_refl _)]
  exact Function.iterate_fixed (round_of_movable (movable_of_still hcoherent hwhole hstill)) _

/-- The slices settle as the whole does. -/
theorem Split.settle (h : Split names state parts) (hreached : Reached state) (hwhole : Whole state)
    (hparts : ∀ key, Reached (parts key) ∧ Whole (parts key)) :
    Split names state.settle fun key ↦ (parts key).settle := by
  have hsize : ∀ key, (parts key).calls.size ≤ state.calls.size := fun key ↦ by
    rw [h.part, size_slice]
    simpa [keys] using List.count_le_length (a := key) (l := state.keys)
  have hsettle : ∀ key, (parts key).settle = Calls.round^[2 * state.calls.size + 2] (parts key) :=
    fun key ↦ settle_eq_iterate (hparts key).1.coherent (hparts key).2 (by have := hsize key; omega)
  -- each slice makes as many rounds as the whole: more than it needs, but no matter
  simp only [hsettle, settle_eq_iterate hreached.coherent hwhole (Nat.le_refl _)]
  exact h.iterate hreached hwhole _

/-! ## Operations on slices -/

/-- A slice after an operation, if that is one on its key. -/
def performed (state : Calls K R) : Option (Operation K R) → Calls K R
  | some operation => state.perform operation
  | none => state

omit [BEq K] [LawfulBEq K] in
theorem keys_call (key : K) (cancelled : Bool) (immediate : Option R) :
    (state.call key cancelled immediate).2.keys = state.keys ++ [key] := by
  simp [keys, Calls.call]

omit [BEq K] [LawfulBEq K] in
theorem leaders_call (h : ∀ number ∈ state.started, number < state.calls.size) (key : K)
    (cancelled : Bool) (immediate : Option R) :
    (state.call key cancelled immediate).2.leaders = state.leaders := by
  rw [leaders, keys_call]
  refine List.map_congr_left fun number hmem ↦ ?_
  exact List.getElem?_append_left (by simpa [keys] using h number (Array.mem_toList_iff.1 hmem))

/-- A call that begins begins in the slice of its key. -/
theorem Reached.slice_call (h : Reached state) (key other : K) (cancelled : Bool)
    (immediate : Option R) (waits : Nat) :
    (state.call other cancelled immediate).2.slice key waits =
      if other == key then ((state.slice key waits).call other cancelled immediate).2
      else state.slice key waits := by
  have hleaders := leaders_call h.coherent.known other cancelled immediate
  have hknown : ∀ number ∈ state.started.toList, number < state.keys.length := fun number hmem ↦ by
    simpa [keys] using h.coherent.known number (Array.mem_toList_iff.1 hmem)
  have hended : ∀ number ∈ state.returned.toList, number < state.keys.length := fun number hmem ↦ by
    simpa [keys] using h.counted.2 number (Array.mem_toList_iff.1 hmem)
  have hlength : state.keys.length = state.calls.toList.length := by simp [keys]
  have hshare := share_append hlength key other
    { key := other, cancelled, stage := .entering, immediate, delivered := none }
  have hkept : (state.call other cancelled immediate).2.started = state.started ∧
      (state.call other cancelled immediate).2.returned = state.returned := ⟨rfl, rfl⟩
  rw [slice, hleaders, hkept.1, hkept.2, keys_call, ranks_extend key hknown,
    ranks_extend key hended]
  simp only [Calls.call, Array.toList_push, hshare]
  split
  · simp [slice, Call.renumber, CallStage.renumber]
  · simp [slice]

namespace Split

/-- An operation on one call is one on it in the slice of its key. -/
theorem operate (step : Calls K R → Nat → Calls K R) (h : Split names state parts)
    (hnone : state.calls[number]? = none → step state number = state)
    (hlocal : ∀ call, state.calls[number]? = some call →
      Local (fun state number ↦ some (step state number)) state number call) :
    Split names (step state number) fun key ↦
      if state.keys[number]? == some key then step (parts key) (rank key state.keys number)
      else parts key := by
  cases hcall : state.calls[number]? with
  | none =>
      have hkeys : state.keys[number]? = none := by simp [keys, hcall]
      simpa [hnone hcall, hkeys] using h
  | some call =>
      have hkeys : state.keys[number]? = some call.key := getElem?_keys hcall
      refine h.step hcall (hlocal call hcall) rfl ?_ fun key hne ↦ ?_
      · simp [hkeys]
      · simp [hkeys, hne]

/-- An operation is one on the slice of its key. -/
theorem perform (h : Split names state parts) (hreached : Reached state)
    (operation : Operation K R) (hknown : ∀ key ∈ operation.begun, key ∈ names) :
    Split names (state.perform operation) fun key ↦
      (parts key).performed (operation.within? key state.keys) := by
  have honly : ∀ {number : Nat} (operation : K → Operation K R),
      (fun key ↦ (parts key).performed
        (if state.keys[number]? == some key then some (operation key) else none)) = fun key ↦
          if state.keys[number]? == some key then (parts key).perform (operation key)
          else parts key := by
    intro number operation
    funext key
    split <;> rfl
  cases operation with
  | call key cancelled immediate =>
      have hwaits : ∀ other : K, ((parts other).performed
          (Operation.within? other state.keys (.call key cancelled immediate))).table.waits =
            (parts other).table.waits := by
        intro other
        rw [Operation.within?]
        split <;> rfl
      refine ⟨h.once, ?_, fun other ↦ ?_, ?_⟩
      · rw [show state.perform (.call key cancelled immediate) =
          (state.call key cancelled immediate).2 from rfl, keys_call]
        intro other hmem
        rcases List.mem_append.1 hmem with hmem | hmem
        · exact h.known other hmem
        · exact hknown other hmem
      · rw [hwaits, show state.perform (.call key cancelled immediate) =
          (state.call key cancelled immediate).2 from rfl, hreached.slice_call, ← h.part,
          Operation.within?]
        split <;> rfl
      · simp only [hwaits]
        exact h.waits
  | deliver number answer =>
      refine (honly _) ▸ h.operate (fun state number ↦ (state.deliver number answer).2)
        (fun hnone ↦ ?_) fun call hcall ↦ local_deliver hcall answer
      simp [deliver, hnone]
  | cancel number =>
      refine (honly _) ▸ h.operate cancel (fun hnone ↦ ?_) fun call hcall ↦
        local_cancel hcall
      have hsame : (state.cancel number).calls = state.calls :=
        Array.ext_getElem? fun other ↦ by
          rw [cancel, Array.getElem?_modify]
          split
          · next heq => rw [← heq, hnone, Option.map_none]
          · rfl
      exact congrArg (fun calls ↦ { state with calls }) hsame
  | drop number =>
      refine (honly _) ▸ h.operate drop (fun hnone ↦ ?_) fun call hcall ↦
        hreached.local_drop hcall
      simp [drop, giveUp?, release?, forsake?, hnone]

end Split

/-! ## Scripts -/

/-- Calls that go on by themselves keep their keys. -/
theorem keys_advances (hsteps : Relation.ReflTransGen Advances state following) :
    following.keys = state.keys := by
  induction hsteps with
  | refl => rfl
  | tail _ hstep ih =>
      obtain ⟨number, call, stage, hcall, hcalls, -⟩ := hstep.progress
      rw [← ih, keys, hcalls]
      exact keys_setStage number stage

theorem Reached.keys_perform (h : Reached state) (operation : Operation K R) :
    (state.perform operation).keys = state.keys ++ operation.begun := by
  cases operation with
  | call key cancelled immediate => exact keys_call key cancelled immediate
  | deliver number answer =>
      rw [Operation.begun, List.append_nil]
      show (state.deliver number answer).2.keys = state.keys
      unfold deliver
      split
      · rfl
      · split
        · exact keys_modify state number _ fun _ ↦ rfl
        · rfl
  | cancel number =>
      rw [Operation.begun, List.append_nil]
      exact keys_modify state number _ fun _ ↦ rfl
  | drop number =>
      rw [Operation.begun, List.append_nil]
      show (state.drop number).keys = state.keys
      cases hcall : state.calls[number]? with
      | none => simp [drop, giveUp?, release?, forsake?, hcall]
      | some call => exact (h.local_drop hcall).keys _ rfl

/-- The calls of a script have the keys that it begins calls for. -/
theorem keys_script (operations : List (Operation K R)) :
    (script operations).keys = operations.flatMap Operation.begun := by
  induction operations using List.reverseRecOn with
  | nil => rfl
  | append_singleton operations operation ih =>
      obtain ⟨hreached, -, -⟩ := script_still operations
      rw [keys_advances (script_steps operations operation), hreached.keys_perform, ih]
      simp

omit [LawfulBEq K] in
theorem restrictFrom_concat (key : K) (begun : List K) (operations : List (Operation K R))
    (operation : Operation K R) :
    restrictFrom key begun (operations ++ [operation]) = restrictFrom key begun operations ++
      (operation.within? key (begun ++ operations.flatMap Operation.begun)).toList := by
  induction operations generalizing begun with
  | nil => simp [restrictFrom]
  | cons first rest ih => simp [restrictFrom, ih]

/-- After a script the slice of a key is what the operations on the key alone come to. -/
theorem script_split (hnames : names.Nodup) (operations : List (Operation K R))
    (hknown : ∀ key ∈ operations.flatMap Operation.begun, key ∈ names) :
    Split names (script operations) fun key ↦ script (restrict key operations) := by
  induction operations using List.reverseRecOn with
  | nil =>
      refine ⟨hnames, by simp [script, keys, empty], fun _ ↦ rfl, ?_⟩
      simp [restrict, restrictFrom, script, empty, FlightTable.empty]
  | append_singleton operations operation ih =>
      simp only [List.flatMap_append, List.mem_append] at hknown
      have hsplit := ih fun key hmem ↦ hknown key (.inl hmem)
      obtain ⟨hreached, hwhole, -⟩ := script_still operations
      obtain ⟨hreached', hwhole'⟩ := hreached.perform hwhole operation
      have hperformed := hsplit.perform hreached operation fun key hmem ↦
        hknown key (.inr (by simpa using hmem))
      have hsettled := hperformed.settle hreached' hwhole' fun key ↦ by
        obtain ⟨hpart, hwhole, -⟩ := script_still (restrict key operations)
        cases operation.within? key (script operations).keys with
        | none => exact ⟨hpart, hwhole⟩
        | some within => exact hpart.perform hwhole within
      have hparts : ∀ key, script (restrict key (operations ++ [operation])) =
          ((script (restrict key operations)).performed
            (operation.within? key (script operations).keys)).settle := by
        intro key
        rw [restrict, restrictFrom_concat, List.nil_append, ← keys_script, ← restrict]
        cases operation.within? key (script operations).keys with
        | none =>
            obtain ⟨hpart, hwhole, hstill⟩ := script_still (restrict key operations)
            rw [Option.toList_none, List.append_nil]
            exact (settle_of_still hpart.coherent hwhole hstill).symm
        | some within => exact script_concat _ within
      simpa only [hparts, script_concat] using hsettled

/-- Keys are independent. For every script and every key, the operations on the key alone leave the
calls on it where the whole script does: the same of them are pending, the others have the same
results, and the same ones were started and returned, in the same order. Over the keys of the
script, the numbers of keys in flight, of executions and of waits add up to those of the whole. -/
theorem keys_independent (operations : List (Operation K R)) :
    let whole := script operations
    let part := fun key ↦ script (restrict key operations)
    (∀ key,
      (part key).calls.toList.map (fun call ↦ (call.result?, call.pending)) =
        share key whole.keys (whole.calls.toList.map fun call ↦ (call.result?, call.pending)) ∧
      (part key).started.toList = ranks key whole.keys whole.started.toList ∧
      (part key).returned.toList = ranks key whole.keys whole.returned.toList) ∧
    whole.table.inFlight =
      ((scriptKeys operations).map fun key ↦ (part key).table.inFlight).sum ∧
    whole.table.executions =
      ((scriptKeys operations).map fun key ↦ (part key).table.executions).sum ∧
    whole.table.waits = ((scriptKeys operations).map fun key ↦ (part key).table.waits).sum := by
  intro whole part
  obtain ⟨hreached, -, -⟩ : Reached whole ∧ Whole whole ∧ whole.Still := script_still operations
  have hsplit : Split (scriptKeys operations) whole part :=
    script_split (nodup_eraseDups _) operations fun key hmem ↦ List.mem_eraseDups.2 hmem
  have hslice := hsplit.part
  refine ⟨fun key ↦ ⟨?_, ?_, ?_⟩, ?_, ?_, hsplit.waits.symm⟩
  · rw [hslice, share_map]
    simp [slice, Function.comp_def]
  · rw [hslice]
    rfl
  · rw [hslice]
    rfl
  · have hrecorded : ∀ key ∈ whole.table.records.map Prod.fst, key ∈ scriptKeys operations := by
      intro key hmem
      obtain ⟨⟨_, flight⟩, hrecord, rfl⟩ := List.mem_map.1 hmem
      obtain ⟨leader, led, hled, rfl, -⟩ := hreached.coherent.led _ flight hrecord
      exact hsplit.known _ (List.mem_of_getElem? (getElem?_keys hled))
    rw [FlightTable.inFlight, ← List.length_map Prod.fst, ← sum_map_count hsplit.once hrecorded]
    congr 1
    refine List.map_congr_left fun key _ ↦ ?_
    rw [List.count, List.countP_map, List.countP_eq_length_filter, hslice]
    exact List.length_map _ |>.symm
  · have hled : ∀ owner ∈ whole.leaders, owner ∈ (scriptKeys operations).map some := by
      intro owner hmem
      obtain ⟨number, hstarted, rfl⟩ := List.mem_map.1 hmem
      have hcall := Array.getElem?_eq_getElem
        (hreached.coherent.known number (Array.mem_toList_iff.1 hstarted))
      rw [getElem?_keys hcall]
      exact List.mem_map_of_mem (hsplit.known _ (List.mem_of_getElem? (getElem?_keys hcall)))
    have honce := List.Nodup.map (fun _ _ ↦ Option.some.inj) hsplit.once
    rw [hreached.counted.1, show whole.started.size = whole.leaders.length by simp [leaders],
      ← sum_map_count honce hled, List.map_map]
    congr 1
    refine List.map_congr_left fun key _ ↦ ?_
    rw [hslice]
    rfl

/-- A call for another key begins and returns while the work of one key is handed over. -/
theorem keys_independent_two :
    let operations : List (Operation String Nat) :=
      [.call "k" false none, .call "l" false (some 2), .call "k" false none, .cancel 0,
        .deliver 2 5]
    LawfulBEq String ∧
      (script (restrict "k" operations)).started.toList =
        ranks "k" (script operations).keys [0, 1, 2] ∧
      (script (restrict "k" operations)).returned.toList =
        ranks "k" (script operations).keys [1, 0, 2] ∧
      ((scriptKeys operations).map fun key ↦
        (script (restrict key operations)).table.executions).sum = 3 := by
  intro operations
  obtain ⟨hparts, -, hexecutions, -⟩ := keys_independent operations
  obtain ⟨-, hstarted, hreturned⟩ := hparts "k"
  have hwhole : (script operations).started.toList = [0, 1, 2] ∧
      (script operations).returned.toList = [1, 0, 2] ∧
      (script operations).table.executions = 3 := ⟨rfl, rfl, rfl⟩
  rw [hwhole.1] at hstarted
  rw [hwhole.2.1] at hreturned
  exact ⟨inferInstance, hstarted, hreturned, hexecutions.symm.trans hwhole.2.2⟩

end ReadThrough.Calls
