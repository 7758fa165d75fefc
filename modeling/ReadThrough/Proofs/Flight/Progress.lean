import Mathlib.Algebra.Ring.Nat
import Mathlib.Data.List.Basic
import ReadThrough.Flight.Script
import ReadThrough.Proofs.Flight.SingleFlight

/-!
# Where calls come to rest

A call rests (`Call.Rests`) when it can do nothing by itself, and calls are still when all of them
rest. `Advances.progress` lists what one call can do by itself, and each of these takes effort away
(`Call.effort`), so calls that are left to themselves become still, in whatever order they move.
`Still.placed` says where the pending ones are then.
-/

namespace ReadThrough

variable {K R : Type} [BEq K]

/-- What one call makes of its stage, of the table and of the started work when it does something
by itself. -/
inductive Calls.Progress (state following : Calls K R) (number : Nat) (call : Call K R) :
    CallStage R → Prop where
  | joined (flight : Nat) :
      call.stage = .entering → (call.key, flight) ∈ state.table.records →
      following.table = { state.table with waits := state.table.waits + 1 } →
      following.started = state.started → Progress state following number call (.waiting flight)
  | led :
      call.stage = .entering → (∀ flight, (call.key, flight) ∉ state.table.records) →
      following.table =
        { state.table with
          records := state.table.records ++ [(call.key, state.table.flights.size)]
          flights := state.table.flights.push .aloft
          executions := state.table.executions + 1 } →
      following.started = state.started.push number →
      Progress state following number call (.leading state.table.flights.size)
  | released (flight : Nat) (ending : Ending R) :
      call.stage = .leading flight →
      (∃ value, ending = .worked value ∧ call.answer = some value) ∨
        ending = .cancelled ∧ call.cancelled = true →
      following.table = state.table.erase call.key → following.started = state.started →
      Progress state following number call (.closing flight ending)
  | closed (flight : Nat) (ending : Ending R) :
      call.stage = .closing flight ending →
      following.table = state.table.resolve flight ending.status →
      following.started = state.started →
      Progress state following number call (ending.result?.elim .dropped .returned)
  | took (flight : Nat) (value : R) :
      call.stage = .waiting flight → state.table.status flight = .landed value →
      following.table = state.table → following.started = state.started →
      Progress state following number call (.returned (.outcome value))
  | readmitted (flight : Nat) :
      call.stage = .waiting flight → state.table.status flight = .lost →
      following.table = state.table → following.started = state.started →
      Progress state following number call .entering
  | left (flight : Nat) :
      call.stage = .waiting flight → call.cancelled = true →
      following.table = state.table → following.started = state.started →
      Progress state following number call (.returned .cancelled)

/-- A call that can do nothing by itself, given the table. -/
def Call.Rests (call : Call K R) (table : FlightTable K R) : Prop :=
  match call.stage with
  | .entering | .closing .. => False
  | .leading _ => call.answer = none ∧ call.cancelled = false
  | .waiting flight => table.status flight = .aloft ∧ call.cancelled = false
  | .returned _ | .dropped => True

/-- How much a call that waits may have left to do by itself, given what became of its flight. -/
def Flight.effort : Flight R → Nat
  | .lost => 4
  | .aloft | .landed _ => 1

/-- How much a call may have left to do by itself, given the table. -/
def Call.effort (call : Call K R) (table : FlightTable K R) : Nat :=
  match call.stage with
  | .entering => 3
  | .leading _ => 2
  | .closing .. => 1
  | .waiting flight => (table.status flight).effort
  | .returned _ | .dropped => 0

/-- The effort of a call among a number of calls, with enough for a pending one to make up for the
waiters that it sends back to contend. -/
def Call.budget (call : Call K R) (table : FlightTable K R) (size : Nat) : Nat :=
  call.effort table + if call.pending then 3 * size else 0

namespace Flight

omit [BEq K] in
theorem one_le_effort (status : Flight R) : 1 ≤ status.effort := by
  cases status <;> simp [effort]

omit [BEq K] in
theorem effort_le_four (status : Flight R) : status.effort ≤ 4 := by
  cases status <;> simp [effort]

end Flight

namespace Call

omit [BEq K] in
/-- A call that rests does so as long as the flight that it waits on stays aloft. -/
theorem Rests.mono {call : Call K R} {table after : FlightTable K R} (h : call.Rests table)
    (haloft : ∀ flight, call.stage = .waiting flight → table.status flight = .aloft →
      after.status flight = .aloft) : call.Rests after := by
  unfold Rests at *
  split at h
  · exact h
  · exact h
  · exact h
  · next flight hstage => exact ⟨haloft flight hstage h.1, h.2⟩
  · trivial
  · trivial

omit [BEq K] in
theorem effort_le_four (call : Call K R) (table : FlightTable K R) : call.effort table ≤ 4 := by
  unfold effort
  split
  · decide
  · decide
  · decide
  · exact Flight.effort_le_four _
  · decide
  · decide

end Call

namespace Calls

variable {state following : Calls K R} {number other flight : Nat} {call : Call K R}

/-! ## Single transitions -/

/-- A leader that takes its record away by itself has an answer, or its token fired. -/
theorem release?_progress {reason : Call K R → Option (Ending R)}
    (hreason : ∀ call ending, reason call = some ending →
      (∃ value, ending = .worked value ∧ call.answer = some value) ∨
        ending = .cancelled ∧ call.cancelled = true)
    (h : state.release? number reason = some following) :
    ∃ call stage, state.calls[number]? = some call ∧
      following.calls = (state.setStage number stage).calls ∧
      Progress state following number call stage := by
  simp only [release?, bind, Option.bind_eq_some_iff] at h
  obtain ⟨call, hcall, h⟩ := h
  split at h
  · next flight hstage =>
    simp only [Option.bind_eq_some_iff, Option.some.injEq] at h
    obtain ⟨ending, hending, rfl⟩ := h
    exact ⟨call, _, hcall, rfl,
      .released flight ending hstage (hreason call ending hending) rfl rfl⟩
  · cases h

/-- What a call does by itself is progress of that call, and leaves it in another stage. -/
theorem act?_progress [LawfulBEq K] {action : Action K R} (hmover : action.mover? = some number)
    (hact : state.act? action = some following) :
    ∃ call stage, state.calls[number]? = some call ∧
      following.calls = (state.setStage number stage).calls ∧
      Progress state following number call stage := by
  cases action with
  | call | deliver | cancel | giveUp | forsake => cases hmover
  | enter =>
      cases hmover
      simp only [act?, enter?, bind, Option.bind_eq_some_iff] at hact
      obtain ⟨call, hcall, hact⟩ := hact
      split at hact
      · next hstage =>
        rcases state.table.enter_cases call.key with ⟨flight, hmem, henter⟩ | ⟨hfree, henter⟩
        · rw [henter] at hact
          cases hact
          exact ⟨call, _, hcall, rfl, .joined flight hstage hmem rfl rfl⟩
        · rw [henter] at hact
          cases hact
          exact ⟨call, _, hcall, rfl, .led hstage hfree rfl rfl⟩
      · cases hact
  | conclude =>
      cases hmover
      refine release?_progress (fun call ending hreason ↦ ?_) hact
      obtain ⟨value, hanswer, rfl⟩ := Option.map_eq_some_iff.1 hreason
      exact .inl ⟨value, rfl, hanswer⟩
  | abandon =>
      cases hmover
      refine release?_progress (fun call ending hreason ↦ ?_) hact
      split at hreason
      · next hcancelled =>
        cases hreason
        exact .inr ⟨rfl, hcancelled⟩
      · cases hreason
  | close =>
      cases hmover
      simp only [act?, close?, bind, Option.bind_eq_some_iff] at hact
      obtain ⟨call, hcall, hact⟩ := hact
      split at hact
      · next flight ending hstage =>
        have hprogress : ∀ {following : Calls K R},
            following.table = state.table.resolve flight ending.status →
            following.started = state.started → Progress state following number call _ :=
          fun htable hstarted ↦ .closed flight ending hstage htable hstarted
        cases hresult : ending.result? with
        | some result =>
            rw [hresult] at hact hprogress
            cases hact
            exact ⟨call, _, hcall, rfl, hprogress rfl rfl⟩
        | none =>
            rw [hresult] at hact hprogress
            cases hact
            exact ⟨call, _, hcall, rfl, hprogress rfl rfl⟩
      · cases hact
  | attend =>
      cases hmover
      simp only [act?, attend?, bind, Option.bind_eq_some_iff] at hact
      obtain ⟨call, hcall, hact⟩ := hact
      split at hact
      · next flight hstage =>
        split at hact
        · next value hstatus =>
          cases hact
          exact ⟨call, _, hcall, rfl, .took flight value hstage hstatus rfl rfl⟩
        · next hstatus =>
          cases hact
          exact ⟨call, _, hcall, rfl, .readmitted flight hstage hstatus rfl rfl⟩
        · cases hact
      · cases hact
  | leave =>
      cases hmover
      simp only [act?, leave?, bind, Option.bind_eq_some_iff] at hact
      obtain ⟨call, hcall, hact⟩ := hact
      split at hact
      · next flight hstage =>
        split at hact
        · next hcancelled =>
          cases hact
          exact ⟨call, _, hcall, rfl, .left flight hstage hcancelled rfl rfl⟩
        · cases hact
      · cases hact

theorem Advances.progress [LawfulBEq K] (h : state.Advances following) :
    ∃ number call stage, state.calls[number]? = some call ∧
      following.calls = (state.setStage number stage).calls ∧
      Progress state following number call stage := by
  obtain ⟨action, number, hmover, hact⟩ := h
  exact ⟨number, act?_progress hmover hact⟩

/-- Only a call that has not ended makes progress. -/
theorem Progress.pending {stage : CallStage R} (h : Progress state following number call stage) :
    call.pending = true := by
  cases h with
  | joined _ hstage | led hstage | released _ _ hstage | closed _ _ hstage | took _ _ hstage
  | readmitted _ hstage | left _ hstage => simp [Call.pending, hstage]

/-- A call that rests makes no progress. -/
theorem Progress.not_rests {stage : CallStage R} (h : Progress state following number call stage) :
    ¬call.Rests state.table := by
  intro hrests
  cases h with
  | released flight ending hstage hreason =>
      obtain ⟨hnone, hlive⟩ : call.answer = none ∧ call.cancelled = false := by
        simpa [Call.Rests, hstage] using hrests
      rcases hreason with ⟨value, -, hanswer⟩ | ⟨-, hcancelled⟩
      · rw [hnone] at hanswer
        cases hanswer
      · rw [hlive] at hcancelled
        cases hcancelled
  | joined _ hstage | led hstage | closed _ _ hstage => simp [Call.Rests, hstage] at hrests
  | took _ _ hstage hstatus | readmitted _ hstage hstatus =>
      simp [Call.Rests, hstage, hstatus] at hrests
  | left _ hstage hcancelled => simp [Call.Rests, hstage, hcancelled] at hrests

/-- A call that does not rest can do something by itself. -/
theorem advances_of_not_rests (hcall : state.calls[number]? = some call)
    (h : ¬call.Rests state.table) : ∃ following, state.Advances following := by
  have hact : ∀ action : Action K R, action.mover? = some number → (state.act? action).isSome →
      ∃ following, state.Advances following := by
    intro action hmover hsome
    obtain ⟨following, hact⟩ := Option.isSome_iff_exists.1 hsome
    exact ⟨following, action, number, hmover, hact⟩
  cases hstage : call.stage with
  | entering =>
      refine hact (.enter number) rfl ?_
      simp only [act?, enter?, hcall, hstage, bind, Option.bind_some]
      split <;> rfl
  | leading flight =>
      by_cases hcancelled : call.cancelled = true
      · refine hact (.abandon number) rfl ?_
        simp [act?, abandon?, release?, hcall, hstage, hcancelled]
      · obtain ⟨value, hanswer⟩ : ∃ value, call.answer = some value := by
          rw [← Option.ne_none_iff_exists']
          intro hnone
          exact h (by simp [Call.Rests, hstage, hnone, hcancelled])
        refine hact (.conclude number) rfl ?_
        simp [act?, conclude?, release?, hcall, hstage, hanswer]
  | closing flight ending =>
      refine hact (.close number) rfl ?_
      simp only [act?, close?, hcall, hstage, bind, Option.bind_some]
      split <;> rfl
  | waiting flight =>
      by_cases hcancelled : call.cancelled = true
      · refine hact (.leave number) rfl ?_
        simp [act?, leave?, hcall, hstage, hcancelled]
      · refine hact (.attend number) rfl ?_
        simp only [act?, attend?, hcall, hstage, bind, Option.bind_some]
        cases hstatus : state.table.status flight with
        | aloft => exact absurd (by simp [Call.Rests, hstage, hstatus, hcancelled]) h
        | landed value => rfl
        | lost => rfl
  | returned | dropped => simp [Call.Rests, hstage] at h

/-- Calls are still when all of them rest. -/
theorem still_iff [LawfulBEq K] :
    state.Still ↔ ∀ (number : Nat) (call : Call K R), state.calls[number]? = some call →
      call.Rests state.table := by
  constructor
  · intro hstill number call hcall
    by_contra hrests
    obtain ⟨following, hadvances⟩ := advances_of_not_rests hcall hrests
    exact hstill following hadvances
  · intro hrests following hadvances
    obtain ⟨number, call, stage, hcall, -, hprogress⟩ := hadvances.progress
    exact hprogress.not_rests (hrests number call hcall)

/-! ## Flights that are aloft -/

/-- Every flight that is aloft has a call that leads it or is about to tell what became of it. -/
def Flown (state : Calls K R) : Prop :=
  ∀ flight : Nat, state.table.flights[flight]? = some .aloft →
    ∃ (number : Nat) (call : Call K R), state.calls[number]? = some call ∧
      call.flying? = some flight

omit [BEq K] in
/-- A change that leaves the flights and the stages as they are leaves them flown. -/
theorem Flown.touch (h : Flown state) (hflights : following.table.flights = state.table.flights)
    (hcalls : ∀ (number : Nat) (call : Call K R), state.calls[number]? = some call →
      ∃ after, following.calls[number]? = some after ∧ after.stage = call.stage) :
    Flown following := by
  intro flight haloft
  rw [hflights] at haloft
  obtain ⟨number, call, hcall, hflying⟩ := h flight haloft
  obtain ⟨after, hafter, hstage⟩ := hcalls number call hcall
  exact ⟨number, after, hafter, by rw [Call.flying?, hstage]; exact hflying⟩

omit [BEq K] in
/-- A change of one stage leaves flights flown if each flight that is aloft is flown by that call
afterwards, or was aloft and was not flown by it before. -/
theorem Flown.turn (h : Flown state) (hcall : state.calls[number]? = some call)
    {stage : CallStage R} (hcalls : following.calls = (state.setStage number stage).calls)
    (hflights : ∀ flight : Nat, following.table.flights[flight]? = some .aloft →
      { call with stage }.flying? = some flight ∨
        state.table.flights[flight]? = some .aloft ∧ call.flying? ≠ some flight) :
    Flown following := by
  intro flight haloft
  rcases hflights flight haloft with hflying | ⟨hbefore, hnot⟩
  · exact ⟨number, _, by rw [hcalls, getElem?_setStage hcall, if_pos rfl], hflying⟩
  · obtain ⟨leader, led, hled, hflying⟩ := h flight hbefore
    have hne : leader ≠ number := by
      rintro rfl
      rw [hcall] at hled
      cases hled
      exact hnot hflying
    exact ⟨leader, led, by rw [hcalls, getElem?_setStage hcall, if_neg hne, hled], hflying⟩

/-- Every change leaves flights flown. -/
theorem Flown.move (h : Flown state) (move : Move state following) : Flown following := by
  -- a flight that was told is not aloft any more
  have htold : ∀ {told : Nat} {status : Flight R}, status ≠ .aloft → ∀ flight : Nat,
      (state.table.resolve told status).flights[flight]? = some .aloft →
      state.table.flights[flight]? = some .aloft ∧ some told ≠ some flight := by
    intro told status hstatus flight haloft
    rw [FlightTable.flights_resolve, Array.getElem?_setIfInBounds] at haloft
    split at haloft
    · split at haloft
      · exact absurd (Option.some.inj haloft) hstatus
      · cases haloft
    · next hne => exact ⟨haloft, fun heq ↦ hne (Option.some.inj heq)⟩
  have hchange : ∀ (number : Nat) (change : Call K R → Call K R),
      (∀ call, (change call).stage = call.stage) →
      Flown { state with calls := state.calls.modify number change } := by
    intro number change hstage
    refine h.touch rfl fun other call hcall ↦ ?_
    simp only [Array.getElem?_modify, hcall, Option.map_some]
    split
    · exact ⟨change call, rfl, hstage call⟩
    · exact ⟨call, rfl, rfl⟩
  cases move with
  | began key cancelled immediate =>
      refine h.touch rfl fun number call hcall ↦ ⟨call, ?_, rfl⟩
      obtain ⟨hlt, -⟩ := Array.getElem?_eq_some_iff.1 hcall
      simp only [Calls.call, Array.getElem?_push]
      rw [if_neg (Nat.ne_of_lt hlt), hcall]
  | refused => exact h
  | delivered number _ answer =>
      exact hchange number (fun c ↦ { c with delivered := some answer }) fun _ ↦ rfl
  | fired number => exact hchange number (fun c ↦ { c with cancelled := true }) fun _ ↦ rfl
  | led number call hcall hstage hfree =>
      refine h.turn hcall rfl fun flight haloft ↦ ?_
      replace haloft : (state.table.flights.push .aloft)[flight]? = some .aloft := haloft
      rw [Array.getElem?_push] at haloft
      split at haloft
      · next heq => exact .inl (congrArg some heq.symm)
      · exact .inr ⟨haloft, by simp [Call.flying?, hstage]⟩
  | released number call flight ending hcall hstage =>
      refine h.turn hcall rfl fun other haloft ↦ ?_
      by_cases heq : flight = other
      · exact .inl (congrArg some heq)
      · exact .inr ⟨haloft, by simpa [Call.flying?, hstage] using heq⟩
  | closed number call flight ending result hcall hstage =>
      refine h.turn hcall rfl fun other haloft ↦ .inr ?_
      rw [Call.flying?, hstage]
      exact htold (by cases ending <;> simp [Ending.status]) other haloft
  | vanished number call flight hcall hstage =>
      refine h.turn hcall rfl fun other haloft ↦ .inr ?_
      rw [Call.flying?, hstage]
      exact htold (by simp) other haloft
  | joined number call flight hcall hstage | took number call flight value hcall hstage
  | readmitted number call flight hcall hstage | left number call flight hcall hstage =>
      exact h.turn hcall rfl fun other haloft ↦ .inr ⟨haloft, by simp [Call.flying?, hstage]⟩
  | forsaken number call hcall hidle =>
      refine h.turn hcall rfl fun other haloft ↦ .inr ⟨haloft, ?_⟩
      rcases hidle with hstage | ⟨flight, hstage⟩ <;> simp [Call.flying?, hstage]

/-! ## Calls that are still -/

/-- A state that calls can come to from none. -/
def Reached (state : Calls K R) : Prop :=
  ∃ past, History (state :: past)

/-- Where a call is that has neither ended nor anything to do: it leads the record of its key, or
it waits on the flight of that record, which another call leads. -/
inductive Placed (state : Calls K R) (number : Nat) (key : K) : Prop where
  | leads (flight : Nat) :
      state.Leads number key flight → (key, flight) ∈ state.table.records →
      Placed state number key
  | waits (flight leader : Nat) :
      state.WaitsOn number flight → (key, flight) ∈ state.table.records →
      state.Leads leader key flight → Placed state number key

theorem nodup_eraseDups [LawfulBEq K] : ∀ keys : List K, keys.eraseDups.Nodup
  | [] => List.nodup_nil
  | key :: rest => by
      rw [List.eraseDups_cons, List.nodup_cons]
      exact ⟨by simp, nodup_eraseDups _⟩
termination_by keys => keys.length
decreasing_by exact Nat.lt_succ_of_le (List.length_filter_le _ rest)

namespace Reached

variable [LawfulBEq K]

theorem coherent (h : Reached state) : Coherent state := by
  obtain ⟨past, hhistory⟩ := h
  exact hhistory.coherent state List.mem_cons_self

omit [LawfulBEq K] in
theorem next (h : Reached state) (action : Action K R)
    (hact : state.act? action = some following) : Reached following := by
  obtain ⟨past, hhistory⟩ := h
  exact ⟨state :: past, hhistory.next hact⟩

theorem flown (h : Reached state) : Flown state := by
  obtain ⟨past, hhistory⟩ := h
  generalize hstates : state :: past = states at hhistory
  induction hhistory generalizing state past with
  | start =>
      cases hstates
      intro flight haloft
      simp [empty, FlightTable.empty] at haloft
  | next hpast happly ih =>
      cases hstates
      exact (ih _ rfl).move (act?_move happly)

/-- The leader of the flight that a call waits on has the key of that call. -/
theorem leader_of_waits (h : Reached state) (hcall : state.calls[number]? = some call)
    (hwaiting : call.stage = .waiting flight) {leader : Nat} {led : Call K R}
    (hled : state.calls[leader]? = some led) (hflying : led.flying? = some flight) :
    led.key = call.key := by
  have hcoherent := h.coherent
  obtain ⟨past, hhistory⟩ := h
  obtain ⟨first, hfirst, moment, hmem, -, met, hmet, hkey, -⟩ :=
    ((hhistory.story hcall).waits flight hwaiting).leader hhistory
  have hstarted := ((hcoherent.fits leader led hled).flying flight hflying).1
  obtain rfl : first = leader := Option.some.inj (hfirst.symm.trans hstarted)
  obtain ⟨after, hafter, hsame⟩ := (hhistory.later hmem).calls first met hmet
  rw [hled] at hafter
  cases hafter
  exact hsame.trans hkey

/-- Once calls are still, every pending one leads its key or waits on the flight of its leader. -/
theorem placed (h : Reached state) (hstill : state.Still)
    (hcall : state.calls[number]? = some call) (hpending : call.pending = true) :
    state.Placed number call.key := by
  have hrests := still_iff.1 hstill number call hcall
  have hrecorded : ∀ {leader : Nat} {led : Call K R} {flight : Nat},
      state.calls[leader]? = some led → led.stage = .leading flight →
      (led.key, flight) ∈ state.table.records := fun hled hleading ↦
    (h.coherent.fits _ _ hled).recorded _ hleading
  cases hstage : call.stage with
  | entering | closing => simp [Call.Rests, hstage] at hrests
  | returned | dropped => simp [Call.pending, hstage] at hpending
  | leading flight =>
      exact .leads flight ⟨call, hcall, rfl, hstage⟩ (hrecorded hcall hstage)
  | waiting flight =>
      obtain ⟨haloft, -⟩ : state.table.status flight = .aloft ∧ call.cancelled = false := by
        simpa [Call.Rests, hstage] using hrests
      obtain ⟨leader, led, hled, hflying⟩ := h.flown flight (FlightTable.status_eq_aloft.1 haloft)
      have hkey := h.leader_of_waits hcall hstage hled hflying
      have hleading : led.stage = .leading flight := by
        have hrests' := still_iff.1 hstill leader led hled
        cases hstage' : led.stage <;> simp_all [Call.flying?, Call.Rests]
      exact .waits flight leader ⟨call, hcall, hstage⟩ (hkey ▸ hrecorded hled hleading)
        ⟨led, hled, hkey, hleading⟩

/-- Once calls are still, the keys on record are those of the pending calls. -/
theorem inFlight_eq (h : Reached state) (hstill : state.Still) :
    state.table.inFlight = state.pendingKeys.length := by
  have hperm : (state.table.records.map Prod.fst).Perm state.pendingKeys := by
    refine (List.perm_ext_iff_of_nodup h.coherent.distinct (nodup_eraseDups _)).2 fun key ↦ ?_
    simp only [List.mem_eraseDups, List.mem_map, List.mem_filter]
    constructor
    · rintro ⟨⟨_, flight⟩, hrecord, rfl⟩
      obtain ⟨leader, led, hled, hkey, hleading⟩ := h.coherent.led _ flight hrecord
      refine ⟨led, ⟨?_, by simp [Call.pending, hleading]⟩, hkey⟩
      exact Array.mem_toList_iff.2 (Array.mem_of_getElem? hled)
    · rintro ⟨call, ⟨hmem, hpending⟩, rfl⟩
      obtain ⟨number, hcall⟩ := Array.mem_iff_getElem?.1 (Array.mem_toList_iff.1 hmem)
      cases h.placed hstill hcall hpending with
      | leads flight _ hrecord | waits flight _ _ hrecord => exact ⟨_, hrecord, rfl⟩
  rw [FlightTable.inFlight, ← List.length_map Prod.fst, hperm.length_eq]

end Reached

/-! ## Effort -/

/-- An upper bound on how often calls can do something by themselves. -/
def effort (state : Calls K R) : Nat :=
  (state.calls.toList.map fun call ↦ call.budget state.table state.calls.size).sum

omit [BEq K] in
/-- A flight on record is aloft. -/
theorem Coherent.status_of_record (h : Coherent state) {key : K}
    (hrecord : (key, flight) ∈ state.table.records) : state.table.status flight = .aloft := by
  obtain ⟨leader, led, hled, -, hleading⟩ := h.led key flight hrecord
  have hflying : led.flying? = some flight := by simp [Call.flying?, hleading]
  exact FlightTable.status_eq_aloft.2 ((h.fits leader led hled).flying flight hflying).2

omit [BEq K] in
/-- The calls around one whose stage changes. -/
theorem split_setStage (hcall : state.calls[number]? = some call) (stage : CallStage R) :
    ∃ front back, state.calls.toList = front ++ call :: back ∧
      (state.setStage number stage).calls.toList = front ++ { call with stage } :: back := by
  obtain ⟨hlt, hget⟩ := Array.getElem?_eq_some_iff.1 hcall
  have hbound : number < state.calls.toList.length := hlt
  have hitem : state.calls.toList[number] = call := hget
  refine ⟨state.calls.toList.take number, state.calls.toList.drop (number + 1), ?_, ?_⟩
  · rw [← hitem, List.getElem_cons_drop, List.take_append_drop]
  · rw [setStage, Array.toList_modify, List.modify_eq_take_cons_drop hbound, hitem]

omit [BEq K] in
/-- The effort of a call does not grow if no flight is lost. -/
theorem effort_mono {table after : FlightTable K R}
    (h : ∀ flight, after.status flight = .lost → table.status flight = .lost) (call : Call K R) :
    call.effort after ≤ call.effort table := by
  unfold Call.effort
  cases call.stage with
  | entering | leading | closing | returned | dropped => exact Nat.le_refl _
  | waiting flight =>
      show (after.status flight).effort ≤ (table.status flight).effort
      have hlost := h flight
      cases hafter : after.status flight with
      | lost => exact Nat.le_of_eq (congrArg Flight.effort (hlost hafter).symm)
      | aloft | landed => exact (table.status flight).one_le_effort

omit [BEq K] in
/-- A call whose flight is lost has to contend anew. -/
theorem effort_le (call : Call K R) (table after : FlightTable K R) :
    call.effort after ≤ call.effort table + 3 := by
  unfold Call.effort
  cases call.stage with
  | entering | leading | closing | returned | dropped => exact Nat.le_add_right _ _
  | waiting flight =>
      have := (table.status flight).one_le_effort
      have := (after.status flight).effort_le_four
      dsimp only
      omega

omit [BEq K] in
/-- A sum over the calls shrinks if one call loses more than all others together may gain. -/
theorem sum_lt {front back : List (Call K R)} {weight weight' : Call K R → Nat} (gain : Nat)
    {call after : Call K R} (hgain : ∀ other, weight' other ≤ weight other + gain)
    (hloss : weight' after + gain * (front.length + back.length) < weight call) :
    ((front ++ after :: back).map weight').sum < ((front ++ call :: back).map weight).sum := by
  have hle : ∀ calls : List (Call K R),
      (calls.map weight').sum ≤ (calls.map weight).sum + gain * calls.length := by
    intro calls
    induction calls with
    | nil => exact Nat.le_refl _
    | cons other rest ih =>
        have := hgain other
        simp only [List.map_cons, List.sum_cons, List.length_cons, Nat.mul_add_one]
        omega
  have hfront := hle front
  have hback := hle back
  rw [Nat.mul_add] at hloss
  simp only [List.map_append, List.map_cons, List.sum_append, List.sum_cons]
  omega

/-- A call that makes progress has less to do afterwards. -/
theorem Progress.effort_lt (hcoherent : Coherent state) {stage : CallStage R}
    (h : Progress state following number call stage) :
    { call with stage }.effort following.table < call.effort state.table := by
  cases h with
  | joined flight hstage hrecord htable =>
      have hjoined : following.table.status flight = .aloft := by
        rw [htable]
        exact hcoherent.status_of_record hrecord
      simp [Call.effort, hstage, hjoined, Flight.effort]
  | led hstage | released _ _ hstage => simp [Call.effort, hstage]
  | closed _ ending hstage => cases ending <;> simp [Call.effort, hstage, Ending.result?]
  | readmitted _ hstage hstatus => simp [Call.effort, hstage, hstatus, Flight.effort]
  | took flight _ hstage | left flight hstage =>
      have hpositive := (state.table.status flight).one_le_effort
      simp only [Call.effort, hstage]
      exact hpositive

/-- Only a leader that tells what became of its flight changes what became of a flight before. -/
theorem Progress.status {stage : CallStage R} (h : Progress state following number call stage)
    (hopen : ∀ flight ending, call.stage ≠ .closing flight ending) (flight : Nat) :
    following.table.status flight = state.table.status flight ∨
      flight = state.table.flights.size ∧ following.table.status flight = .aloft := by
  cases h with
  | joined _ _ _ htable | released _ _ _ _ htable => exact .inl (by rw [htable]; rfl)
  | took _ _ _ _ htable | readmitted _ _ _ htable | left _ _ _ htable =>
      exact .inl (by rw [htable])
  | closed other ending hstage => exact absurd hstage (hopen other ending)
  | led _ _ htable =>
      rw [htable, FlightTable.status_push]
      split
      · next heq => exact .inr ⟨heq, rfl⟩
      · exact .inl rfl

/-- No flight is forgotten. -/
theorem Progress.size_le {stage : CallStage R} (h : Progress state following number call stage) :
    state.table.flights.size ≤ following.table.flights.size := by
  cases h with
  | joined _ _ _ htable | took _ _ _ _ htable | readmitted _ _ _ htable | left _ _ _ htable =>
      exact Nat.le_of_eq (by rw [htable])
  | released _ _ _ _ htable => exact Nat.le_of_eq (by rw [htable, FlightTable.flights_erase])
  | closed _ _ _ htable =>
      exact Nat.le_of_eq (by rw [htable, FlightTable.flights_resolve, Array.size_setIfInBounds])
  | led _ _ htable =>
      rw [htable, Array.size_push]
      exact Nat.le_succ _

/-- Whatever a call does by itself takes effort away. -/
theorem Advances.effort_lt [LawfulBEq K] (hcoherent : Coherent state)
    (h : state.Advances following) : following.effort < state.effort := by
  obtain ⟨number, call, stage, hcall, hcalls, hprogress⟩ := h.progress
  obtain ⟨front, back, hbefore, hafter⟩ := split_setStage hcall stage
  rw [← hcalls] at hafter
  have hlength : front.length + back.length + 1 = state.calls.size := by
    rw [← Array.length_toList, hbefore, List.length_append, List.length_cons, Nat.add_assoc]
  have hsize : following.calls.size = state.calls.size := by
    rw [hcalls, setStage, Array.size_modify]
  have hless := hprogress.effort_lt hcoherent
  have hpending : call.pending = true := hprogress.pending
  have hshrinks : ∀ gain, (∀ other : Call K R,
        other.effort following.table ≤ other.effort state.table + gain) →
      { call with stage }.budget following.table state.calls.size +
        gain * (front.length + back.length) < call.budget state.table state.calls.size →
      following.effort < state.effort := by
    intro gain hgain hloss
    unfold Calls.effort
    rw [hbefore, hafter, hsize]
    refine sum_lt gain (fun other ↦ ?_) hloss
    have := hgain other
    simp only [Call.budget]
    omega
  by_cases hclosing : ∃ flight ending, call.stage = .closing flight ending
  · -- each waiter of a flight that is lost may have to contend anew
    obtain ⟨flight, ending, hstage⟩ := hclosing
    refine hshrinks 3 (fun other ↦ effort_le other _ _) ?_
    have hended : { call with stage }.pending = false := by
      cases hprogress with
      | closed _ ending => cases ending <;> rfl
      | joined _ hother | led hother | released _ _ hother | took _ _ hother | readmitted _ hother
      | left _ hother =>
          rw [hstage] at hother
          cases hother
    simp only [Call.budget, hpending, hended, Bool.false_eq_true, if_true, if_false]
    omega
  · refine hshrinks 0 (effort_mono fun flight hlost ↦ ?_) ?_
    · rcases hprogress.status (fun flight ending heq ↦ hclosing ⟨flight, ending, heq⟩) flight with
        hsame | ⟨-, haloft⟩
      · exact hsame.symm.trans hlost
      · rw [haloft] at hlost
        cases hlost
    · simp only [Call.budget, hpending, if_true]
      split <;> omega

omit [BEq K] in
/-- What calls do by themselves is a change like any other. -/
theorem Advances.coherent [BEq K] [LawfulBEq K] (h : state.Advances following)
    (hcoherent : Coherent state) : Coherent following := by
  obtain ⟨action, -, -, hact⟩ := h
  exact hcoherent.move (act?_move hact)

/-- Calls that are left to themselves come to rest: they can go on no longer than their effort. -/
theorem length_le_effort [LawfulBEq K] {run : List (Calls K R)} (hcoherent : Coherent state)
    (h : List.IsChain Advances (state :: run)) : run.length ≤ state.effort := by
  induction run generalizing state with
  | nil => exact Nat.zero_le _
  | cons following rest ih =>
      obtain ⟨hadvances, hrest⟩ := List.isChain_cons_cons.1 h
      have hlt := hadvances.effort_lt hcoherent
      exact Nat.lt_of_le_of_lt (ih (hadvances.coherent hcoherent) hrest) hlt

end Calls

end ReadThrough
