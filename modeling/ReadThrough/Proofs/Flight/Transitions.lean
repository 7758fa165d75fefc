import ReadThrough.Flight.Interleaving
import ReadThrough.Proofs.Flight.Table

/-!
# What one action does to calls

`Move` lists the ways in which calls and their flight table change, each with the conditions under
which it happens, and `act?_move` says that there are no others. Read `Move` before the
invariants: every invariant is proved by its cases alone.
-/

namespace ReadThrough

variable {K R : Type} [BEq K] [LawfulBEq K]

namespace Call

omit [BEq K] [LawfulBEq K] in
/-- A later delivery does not change an answer that is there. -/
theorem answer_deliver {call : Call K R} {value answer : R} (h : call.answer = some value)
    (hnone : call.delivered = none) :
    { call with delivered := some answer }.answer = some value := by
  have hnow : call.immediate = some value := by
    simpa [Call.answer, hnone] using h
  simp [Call.answer, hnow]

end Call

namespace Calls

omit [BEq K] [LawfulBEq K] in
/-- Moving a call to a stage changes the stage of that call alone. -/
theorem getElem?_setStage {state : Calls K R} {number other : Nat} {call : Call K R}
    {stage : CallStage R} (h : state.calls[number]? = some call) :
    (state.setStage number stage).calls[other]? =
      if other = number then some { call with stage } else state.calls[other]? := by
  unfold setStage
  rw [Array.getElem?_modify]
  by_cases hn : number = other
  · subst hn
    simp [h]
  · rw [if_neg hn, if_neg (Ne.symm hn)]

/-- One change of the calls and their table. Each case names the call, the stage it is found in,
and what makes the change possible. -/
inductive Move (state : Calls K R) : Calls K R → Prop where
  | began (key : K) (cancelled : Bool) (immediate : Option R) :
      Move state (state.call key cancelled immediate).2
  | refused : Move state state
  | delivered (number : Nat) (call : Call K R) (answer : R) :
      state.calls[number]? = some call → call.pending → call.delivered = none →
      Move state
        { state with
          calls := state.calls.modify number fun c ↦ { c with delivered := some answer } }
  | fired (number : Nat) : Move state (state.cancel number)
  | joined (number : Nat) (call : Call K R) (flight : Nat) :
      state.calls[number]? = some call → call.stage = .entering →
      (call.key, flight) ∈ state.table.records →
      Move state
        ({ state with table := { state.table with waits := state.table.waits + 1 } }.setStage
          number (.waiting flight))
  | led (number : Nat) (call : Call K R) :
      state.calls[number]? = some call → call.stage = .entering →
      (∀ flight, (call.key, flight) ∉ state.table.records) →
      Move state
        ({ state with
            table :=
              { state.table with
                records := state.table.records ++ [(call.key, state.table.flights.size)]
                flights := state.table.flights.push .aloft
                executions := state.table.executions + 1 }
            started := state.started.push number }.setStage number
          (.leading state.table.flights.size))
  | released (number : Nat) (call : Call K R) (flight : Nat) (ending : Ending R) :
      state.calls[number]? = some call → call.stage = .leading flight →
      (∀ value, ending = .worked value → call.answer = some value) →
      (ending = .cancelled → call.cancelled = true) →
      Move state
        ({ state with table := state.table.erase call.key }.setStage number
          (.closing flight ending))
  | closed (number : Nat) (call : Call K R) (flight : Nat) (ending : Ending R)
      (result : CallResult R) :
      state.calls[number]? = some call → call.stage = .closing flight ending →
      ending.result? = some result →
      Move state
        ({ state with table := state.table.resolve flight ending.status }.finish number result)
  | vanished (number : Nat) (call : Call K R) (flight : Nat) :
      state.calls[number]? = some call → call.stage = .closing flight .dropped →
      Move state
        ({ state with table := state.table.resolve flight .lost }.setStage number .dropped)
  | took (number : Nat) (call : Call K R) (flight : Nat) (value : R) :
      state.calls[number]? = some call → call.stage = .waiting flight →
      state.table.flights[flight]? = some (.landed value) →
      Move state (state.finish number (.outcome value))
  | readmitted (number : Nat) (call : Call K R) (flight : Nat) :
      state.calls[number]? = some call → call.stage = .waiting flight →
      state.table.status flight = .lost →
      Move state (state.setStage number .entering)
  | left (number : Nat) (call : Call K R) (flight : Nat) :
      state.calls[number]? = some call → call.stage = .waiting flight → call.cancelled = true →
      Move state (state.finish number .cancelled)
  | forsaken (number : Nat) (call : Call K R) :
      state.calls[number]? = some call →
      (call.stage = .entering ∨ ∃ flight, call.stage = .waiting flight) →
      Move state (state.setStage number .dropped)

omit [LawfulBEq K] in
/-- A leader that takes its record away has a reason. -/
theorem release?_move {state following : Calls K R} {number : Nat}
    {reason : Call K R → Option (Ending R)}
    (hworked : ∀ call value, reason call = some (.worked value) → call.answer = some value)
    (hcancelled : ∀ call, reason call = some .cancelled → call.cancelled = true)
    (h : state.release? number reason = some following) : Move state following := by
  simp only [release?, bind, Option.bind_eq_some_iff] at h
  obtain ⟨call, hcall, h⟩ := h
  split at h
  · next flight hstage =>
    simp only [Option.bind_eq_some_iff, Option.some.injEq] at h
    obtain ⟨ending, hending, rfl⟩ := h
    refine .released number call flight ending hcall hstage ?_ ?_
    · rintro value rfl
      exact hworked call value hending
    · rintro rfl
      exact hcancelled call hending
  · cases h

/-- Every action that happens is one of the changes. -/
theorem act?_move {state following : Calls K R} {action : Action K R}
    (h : state.act? action = some following) : Move state following := by
  cases action with
  | call key cancelled immediate =>
      cases h
      exact .began key cancelled immediate
  | deliver number answer =>
      simp only [act?, Option.some.injEq] at h
      subst h
      unfold deliver
      cases hcall : state.calls[number]? with
      | none => exact .refused
      | some call =>
          by_cases hopen : (call.pending && call.delivered.isNone) = true
          · simp only [hopen, if_true]
            simp only [Bool.and_eq_true, Option.isNone_iff_eq_none] at hopen
            exact .delivered number call answer hcall hopen.1 hopen.2
          · simp only [hopen]
            exact .refused
  | cancel number =>
      cases h
      exact .fired number
  | enter number =>
      simp only [act?, enter?, bind, Option.bind_eq_some_iff] at h
      obtain ⟨call, hcall, h⟩ := h
      split at h
      · next hstage =>
        rcases state.table.enter_cases call.key with ⟨flight, hmem, henter⟩ | ⟨hfree, henter⟩
        · rw [henter] at h
          cases h
          exact .joined number call flight hcall hstage hmem
        · rw [henter] at h
          cases h
          exact .led number call hcall hstage hfree
      · cases h
  | conclude number =>
      refine release?_move ?_ ?_ h
      · intro call value hreason
        cases hanswer : call.answer <;> simp_all
      · intro call hreason
        cases hanswer : call.answer <;> simp_all
  | abandon number =>
      refine release?_move ?_ ?_ h
      · intro call value hreason
        split at hreason <;> simp at hreason
      · intro call hreason
        split at hreason
        · assumption
        · cases hreason
  | giveUp number => exact release?_move (by simp) (by simp) h
  | close number =>
      simp only [act?, close?, bind, Option.bind_eq_some_iff] at h
      obtain ⟨call, hcall, h⟩ := h
      split at h
      · next flight ending hstage =>
        split at h
        · next result hresult =>
          cases h
          exact .closed number call flight ending result hcall hstage hresult
        · next hresult =>
          cases h
          cases ending with
          | dropped => exact .vanished number call flight hcall hstage
          | worked | cancelled => cases hresult
      · cases h
  | attend number =>
      simp only [act?, attend?, bind, Option.bind_eq_some_iff] at h
      obtain ⟨call, hcall, h⟩ := h
      split at h
      · next flight hstage =>
        split at h
        · next value hstatus =>
          cases h
          exact .took number call flight value hcall hstage
            (FlightTable.status_eq_landed.1 hstatus)
        · next hstatus =>
          cases h
          exact .readmitted number call flight hcall hstage hstatus
        · cases h
      · cases h
  | leave number =>
      simp only [act?, leave?, bind, Option.bind_eq_some_iff] at h
      obtain ⟨call, hcall, h⟩ := h
      split at h
      · next flight hstage =>
        split at h
        · next hcancelled =>
          cases h
          exact .left number call flight hcall hstage hcancelled
        · cases h
      · cases h
  | forsake number =>
      simp only [act?, forsake?, bind, Option.bind_eq_some_iff] at h
      obtain ⟨call, hcall, h⟩ := h
      split at h
      · next hstage =>
        cases h
        exact .forsaken number call hcall (.inl hstage)
      · next flight hstage =>
        cases h
        exact .forsaken number call hcall (.inr ⟨flight, hstage⟩)
      · cases h

end Calls

end ReadThrough
