import ReadThrough.Proofs.Flight.Transitions

/-!
# Calls and their table agree

`Coherent` says how the calls and the records and flights of their table fit together, and
`History.coherent` that they do in every state of every history. A record stands for exactly one
leader because the calls that lead are read off two places at once, their stage and the order in
which their work was started.
-/

namespace ReadThrough

variable {K R : Type}

/-! ## Coherence -/

/-- The flight that a call leads, or that it is about to settle. -/
def Call.flying? (call : Call K R) : Option Nat :=
  match call.stage with
  | .leading flight | .closing flight _ => some flight
  | _ => none

/-- A call that has not led yet: it is about to ask for its key, or waits. -/
def Call.Idle (call : Call K R) : Prop :=
  call.stage = .entering ∨ ∃ flight, call.stage = .waiting flight

namespace Calls

/-- What holds of one call, given the table. Flights are numbered in the order in which their work
was started, so the leader of a flight is read off `started`. -/
structure Fits (state : Calls K R) (number : Nat) (call : Call K R) : Prop where
  recorded : ∀ flight, call.stage = .leading flight → (call.key, flight) ∈ state.table.records
  flying : ∀ flight, call.flying? = some flight →
    state.started[flight]? = some number ∧ state.table.flights[flight]? = some .aloft
  worked : ∀ flight value, call.stage = .closing flight (.worked value) →
    call.answer = some value
  fired : (call.stage = .returned .cancelled ∨ ∃ flight, call.stage = .closing flight .cancelled) →
    call.cancelled = true
  idle : call.Idle → number ∉ state.started

/-- What holds of calls and their table in every reachable state. -/
structure Coherent (state : Calls K R) : Prop where
  distinct : (state.table.records.map Prod.fst).Nodup
  size : state.started.size = state.table.flights.size
  fits : ∀ (number : Nat) (call : Call K R), state.calls[number]? = some call →
    state.Fits number call
  led : ∀ key flight, (key, flight) ∈ state.table.records →
    ∃ number, state.Leads number key flight
  landed : ∀ (flight : Nat) (value : R), state.table.flights[flight]? = some (.landed value) →
    ∃ number, ∃ call : Call K R, state.started[flight]? = some number ∧
      state.calls[number]? = some call ∧ call.stage = .returned (.outcome value) ∧
      call.answer = some value
  known : ∀ number ∈ state.started, number < state.calls.size

theorem coherent_empty : Coherent (empty : Calls K R) where
  distinct := List.nodup_nil
  size := rfl
  fits := by simp [empty]
  led := by simp [empty, FlightTable.empty]
  landed := by simp [empty, FlightTable.empty]
  known := by simp [empty]

/-- A change of one call and of the table keeps the calls coherent, if they still fit, every record
is led by the call or was not led by it before, and every flight that landed is that of the call or
had landed before. -/
theorem Coherent.alter {state following : Calls K R} {number : Nat} {call : Call K R}
    (h : Coherent state) (hcall : state.calls[number]? = some call) (after : Call K R)
    (hcalls : ∀ other : Nat, following.calls[other]? =
      if other = number then some after else state.calls[other]?)
    (hdistinct : (following.table.records.map Prod.fst).Nodup)
    (hsize : following.started.size = following.table.flights.size)
    (hfits : following.Fits number after)
    (hothers : ∀ (other : Nat) (found : Call K R), other ≠ number →
      state.calls[other]? = some found → following.Fits other found)
    (hled : ∀ key flight, (key, flight) ∈ following.table.records →
      after.key = key ∧ after.stage = .leading flight ∨
      (key, flight) ∈ state.table.records ∧ ¬(call.key = key ∧ call.stage = .leading flight))
    (hlanded : ∀ (flight : Nat) (value : R),
      following.table.flights[flight]? = some (.landed value) →
      following.started[flight]? = some number ∧ after.stage = .returned (.outcome value) ∧
        after.answer = some value ∨
      state.table.flights[flight]? = some (.landed value) ∧
        following.started[flight]? = state.started[flight]? ∧
        (call.stage = .returned (.outcome value) → call.answer = some value →
          after.stage = .returned (.outcome value) ∧ after.answer = some value))
    (hknown : ∀ other ∈ following.started, other ∈ state.started ∨ other = number) :
    Coherent following where
  distinct := hdistinct
  size := hsize
  fits := by
    intro other found hfound
    rw [hcalls] at hfound
    split at hfound
    · next heq =>
      cases hfound
      exact heq ▸ hfits
    · next hne => exact hothers other found hne hfound
  led := by
    intro key flight hmem
    rcases hled key flight hmem with ⟨hkey, hstage⟩ | ⟨hold, hother⟩
    · exact ⟨number, after, by rw [hcalls, if_pos rfl], hkey, hstage⟩
    · obtain ⟨leader, led, hleader, hkey, hstage⟩ := h.led key flight hold
      have hne : leader ≠ number := by
        rintro rfl
        rw [hcall] at hleader
        cases hleader
        exact hother ⟨hkey, hstage⟩
      exact ⟨leader, led, by rw [hcalls, if_neg hne]; exact hleader, hkey, hstage⟩
  landed := by
    intro flight value hflight
    rcases hlanded flight value hflight with ⟨hstart, hstage, hanswer⟩ | ⟨hold, hstart, hends⟩
    · exact ⟨number, after, hstart, by rw [hcalls, if_pos rfl], hstage, hanswer⟩
    · obtain ⟨leader, led, hstarted, hleader, hstage, hanswer⟩ := h.landed flight value hold
      by_cases heq : leader = number
      · subst heq
        rw [hcall] at hleader
        cases hleader
        obtain ⟨hstage', hanswer'⟩ := hends hstage hanswer
        exact ⟨leader, after, hstart.trans hstarted, by rw [hcalls, if_pos rfl], hstage',
          hanswer'⟩
      · exact ⟨leader, led, hstart.trans hstarted, by rw [hcalls, if_neg heq]; exact hleader,
          hstage, hanswer⟩
  known := by
    intro other hmem
    have hlt : other < state.calls.size := by
      rcases hknown other hmem with hold | rfl
      · exact h.known other hold
      · exact (Array.getElem?_eq_some_iff.1 hcall).1
    by_contra hge
    have hnone : following.calls[other]? = none :=
      Array.getElem?_eq_none_iff.2 (Nat.not_lt.1 hge)
    rw [hcalls] at hnone
    split at hnone
    · cases hnone
    · simp [Array.getElem?_eq_getElem hlt] at hnone

/-- A change of one call that does not touch the flights keeps the calls coherent, as long as the
call leads the same flight as before, or none. -/
theorem Coherent.replace {state following : Calls K R} {number : Nat} {call : Call K R}
    (h : Coherent state) (hcall : state.calls[number]? = some call) (after : Call K R)
    (hcalls : ∀ other : Nat, following.calls[other]? =
      if other = number then some after else state.calls[other]?)
    (hrecords : following.table.records = state.table.records)
    (hflights : following.table.flights = state.table.flights)
    (hstarted : following.started = state.started)
    (hleads : ∀ flight, call.stage = .leading flight →
      after.stage = .leading flight ∧ after.key = call.key)
    (hlanded : ∀ value, call.stage = .returned (.outcome value) → call.answer = some value →
      after.stage = .returned (.outcome value) ∧ after.answer = some value)
    (hfits : state.Fits number after) : Coherent following := by
  have hsame : ∀ {other : Nat} {found : Call K R}, state.Fits other found →
      following.Fits other found := fun hfit ↦
    ⟨by rw [hrecords]; exact hfit.recorded, by rw [hstarted, hflights]; exact hfit.flying,
      hfit.worked, hfit.fired, by rw [hstarted]; exact hfit.idle⟩
  refine h.alter hcall after hcalls (by rw [hrecords]; exact h.distinct)
    (by rw [hstarted, hflights]; exact h.size) (hsame hfits)
    (fun other found _ hfound ↦ hsame (h.fits other found hfound)) ?_ ?_ ?_
  · intro key flight hmem
    rw [hrecords] at hmem
    by_cases hleading : call.key = key ∧ call.stage = .leading flight
    · obtain ⟨hstage, hkey⟩ := hleads flight hleading.2
      exact .inl ⟨hkey.trans hleading.1, hstage⟩
    · exact .inr ⟨hmem, hleading⟩
  · intro flight value hflight
    rw [hflights] at hflight
    exact .inr ⟨hflight, by rw [hstarted], hlanded value⟩
  · intro other hmem
    exact .inl (hstarted ▸ hmem)

/-- A call that has not led may wait, contend anew, or end. -/
theorem Fits.of_idle {state : Calls K R} {number : Nat} {call : Call K R} {stage : CallStage R}
    (h : state.Fits number call) (hidle : call.Idle)
    (hstage : { call with stage }.Idle ∨ stage = .dropped ∨
      ∃ result, stage = .returned result ∧ (result = .cancelled → call.cancelled = true)) :
    state.Fits number { call with stage } := by
  rcases hstage with (rfl | ⟨flight, rfl⟩) | rfl | ⟨result, rfl, hfired⟩ <;>
    exact ⟨by simp, by simp [Call.flying?], by simp, by simp_all, fun _ ↦ h.idle hidle⟩

/-- A call that has not led may wait, contend anew, or end, and the calls stay coherent. -/
theorem Coherent.idle {state following : Calls K R} {number : Nat} {call : Call K R}
    {stage : CallStage R} (h : Coherent state) (hcall : state.calls[number]? = some call)
    (hidle : call.Idle)
    (hstage : { call with stage }.Idle ∨ stage = .dropped ∨
      ∃ result, stage = .returned result ∧ (result = .cancelled → call.cancelled = true))
    (hcalls : following.calls = (state.setStage number stage).calls)
    (hrecords : following.table.records = state.table.records)
    (hflights : following.table.flights = state.table.flights)
    (hstarted : following.started = state.started) : Coherent following := by
  refine h.replace hcall { call with stage } ?_ hrecords hflights hstarted ?_ ?_
    ((h.fits number call hcall).of_idle hidle hstage)
  · intro other
    rw [hcalls, getElem?_setStage hcall]
  · intro flight hleading
    rcases hidle with heq | ⟨_, heq⟩ <;> rw [heq] at hleading <;> cases hleading
  · intro value hreturned
    rcases hidle with heq | ⟨_, heq⟩ <;> rw [heq] at hreturned <;> cases hreturned

/-- A delivery or a token that fires keeps the calls coherent. -/
theorem Coherent.touch {state : Calls K R} {number : Nat} (h : Coherent state)
    (change : Call K R → Call K R)
    (hkey : ∀ call, (change call).key = call.key)
    (hstage : ∀ call, (change call).stage = call.stage)
    (hanswer : ∀ call value, state.calls[number]? = some call → call.answer = some value →
      (change call).answer = some value)
    (hfired : ∀ call, call.cancelled = true → (change call).cancelled = true) :
    Coherent { state with calls := state.calls.modify number change } := by
  cases hcall : state.calls[number]? with
  | none =>
      have hsame : state.calls.modify number change = state.calls := by
        apply Array.ext_getElem?
        intro other
        rw [Array.getElem?_modify]
        split
        · next heq =>
          subst heq
          rw [hcall, Option.map_none]
        · rfl
      rw [hsame]
      exact h
  | some call =>
      have hfit := h.fits number call hcall
      refine h.replace hcall (change call) ?_ rfl rfl rfl ?_ ?_ ?_
      · intro other
        rw [Array.getElem?_modify]
        by_cases heq : number = other
        · subst heq
          simp [hcall]
        · rw [if_neg heq, if_neg (Ne.symm heq)]
      · intro flight hleading
        exact ⟨(hstage call).trans hleading, hkey call⟩
      · intro value hreturned hvalue
        exact ⟨(hstage call).trans hreturned, hanswer call value hcall hvalue⟩
      · constructor
        · intro flight hleading
          rw [hkey]
          exact hfit.recorded flight (hstage call ▸ hleading)
        · intro flight hflying
          apply hfit.flying flight
          simpa only [Call.flying?, hstage] using hflying
        · intro flight value hclosing
          exact hanswer call value hcall (hfit.worked flight value (hstage call ▸ hclosing))
        · intro hended
          apply hfired
          apply hfit.fired
          simpa only [hstage] using hended
        · intro hidle
          apply hfit.idle
          simpa only [Call.Idle, hstage] using hidle

/-- A call that begins keeps the calls coherent. -/
theorem Coherent.call {state : Calls K R} (h : Coherent state) (key : K) (cancelled : Bool)
    (immediate : Option R) : Coherent (state.call key cancelled immediate).2 := by
  have hnew : state.calls.size ∉ state.started := fun hmem ↦ Nat.lt_irrefl _ (h.known _ hmem)
  have hold : ∀ {number : Nat} {call : Call K R}, state.calls[number]? = some call →
      (state.call key cancelled immediate).2.calls[number]? = some call := by
    intro number call hcall
    obtain ⟨hlt, -⟩ := Array.getElem?_eq_some_iff.1 hcall
    simp only [Calls.call, Array.getElem?_push]
    rw [if_neg (Nat.ne_of_lt hlt), hcall]
  constructor
  · exact h.distinct
  · exact h.size
  · intro number call hcall
    simp only [Calls.call, Array.getElem?_push] at hcall
    split at hcall
    · next heq =>
      cases hcall
      subst heq
      exact ⟨by simp, by simp [Call.flying?], by simp, by simp, fun _ ↦ hnew⟩
    · obtain ⟨hrecorded, hflying, hworked, hfired, hidle⟩ := h.fits number call hcall
      exact ⟨hrecorded, hflying, hworked, hfired, hidle⟩
  · intro key flight hmem
    obtain ⟨leader, led, hled, hleads⟩ := h.led key flight hmem
    exact ⟨leader, led, hold hled, hleads⟩
  · intro flight value hflight
    obtain ⟨leader, led, hstart, hled, hended⟩ := h.landed flight value hflight
    exact ⟨leader, led, hstart, hold hled, hended⟩
  · intro number hmem
    have := h.known number hmem
    simp only [Calls.call, Array.size_push]
    omega

/-- No two calls lead or settle one flight. -/
theorem Coherent.flying_unique {state : Calls K R} (h : Coherent state) {first second : Nat}
    {call other : Call K R} {flight : Nat} (hcall : state.calls[first]? = some call)
    (hother : state.calls[second]? = some other) (hflying : call.flying? = some flight)
    (hflying' : other.flying? = some flight) : first = second := by
  have hfirst := ((h.fits first call hcall).flying flight hflying).1
  have hsecond := ((h.fits second other hother).flying flight hflying').1
  rw [hfirst] at hsecond
  exact Option.some.inj hsecond

/-- A key is on record with one flight at most. -/
theorem Coherent.record_unique {state : Calls K R} (h : Coherent state) {key : K}
    {flight other : Nat} (hflight : (key, flight) ∈ state.table.records)
    (hother : (key, other) ∈ state.table.records) : flight = other := by
  have heq := List.inj_on_of_nodup_map h.distinct hflight hother rfl
  exact congrArg Prod.snd heq

/-- No two calls lead for one key. -/
theorem Coherent.leads_unique {state : Calls K R} (h : Coherent state) {first second : Nat}
    {key : K} {flight other : Nat} (hfirst : state.Leads first key flight)
    (hsecond : state.Leads second key other) : first = second := by
  obtain ⟨call, hcall, rfl, hstage⟩ := hfirst
  obtain ⟨call', hcall', hkey, hstage'⟩ := hsecond
  have hmem := (h.fits first call hcall).recorded flight hstage
  have hmem' := (h.fits second call' hcall').recorded other hstage'
  rw [hkey] at hmem'
  obtain rfl := h.record_unique hmem hmem'
  have hflying : call.flying? = some flight := by simp [Call.flying?, hstage]
  have hflying' : call'.flying? = some flight := by simp [Call.flying?, hstage']
  exact h.flying_unique hcall hcall' hflying hflying'

section

variable {state following : Calls K R} {number : Nat} {call : Call K R}

/-- A call that begins a flight for a key without record keeps the calls coherent. -/
theorem Coherent.lead (h : Coherent state) (hcall : state.calls[number]? = some call)
    (hstage : call.stage = .entering)
    (hfree : ∀ flight, (call.key, flight) ∉ state.table.records)
    (hcalls : following.calls =
      (state.setStage number (.leading state.table.flights.size)).calls)
    (hrecords : following.table.records =
      state.table.records ++ [(call.key, state.table.flights.size)])
    (hflights : following.table.flights = state.table.flights.push .aloft)
    (hstarted : following.started = state.started.push number) : Coherent following := by
  have hnew : number ∉ state.started := (h.fits number call hcall).idle (.inl hstage)
  -- the flights there were keep their number, their leader and what became of them
  have hkept : ∀ {flight : Nat} {status : Flight R}, state.table.flights[flight]? = some status →
      following.table.flights[flight]? = some status ∧
        following.started[flight]? = state.started[flight]? := by
    intro flight status hflight
    have hlt := (Array.getElem?_eq_some_iff.1 hflight).1
    have hlt' : flight < state.started.size := h.size ▸ hlt
    rw [hflights, hstarted, Array.getElem?_push, Array.getElem?_push,
      if_neg (Nat.ne_of_lt hlt), if_neg (Nat.ne_of_lt hlt')]
    exact ⟨hflight, rfl⟩
  refine h.alter hcall { call with stage := .leading state.table.flights.size }
    (fun other ↦ by rw [hcalls, getElem?_setStage hcall]) ?_ ?_ ?_ ?_ ?_ ?_ ?_
  · rw [hrecords, List.map_append, List.nodup_append]
    refine ⟨h.distinct, by simp, ?_⟩
    rintro key hkey other hother rfl
    simp only [List.map_cons, List.map_nil, List.mem_singleton] at hother
    subst hother
    obtain ⟨⟨_, flight⟩, hmem, rfl⟩ := List.mem_map.1 hkey
    exact hfree flight hmem
  · rw [hstarted, hflights, Array.size_push, Array.size_push, h.size]
  · refine ⟨?_, ?_, by simp, by simp, by simp [Call.Idle]⟩
    · rintro flight ⟨⟩
      simp [hrecords]
    · rintro flight ⟨⟩
      rw [hflights, hstarted, Array.getElem?_push_size, ← h.size, Array.getElem?_push_size]
      exact ⟨rfl, rfl⟩
  · intro other found hne hfound
    obtain ⟨hrecorded, hflying, hworked, hfired, hidle⟩ := h.fits other found hfound
    refine ⟨?_, ?_, hworked, hfired, ?_⟩
    · intro flight hleading
      rw [hrecords]
      exact List.mem_append_left _ (hrecorded flight hleading)
    · intro flight hflight
      obtain ⟨hstart, haloft⟩ := hflying flight hflight
      obtain ⟨haloft', hstart'⟩ := hkept haloft
      exact ⟨hstart'.trans hstart, haloft'⟩
    · intro hfree hmem
      rw [hstarted] at hmem
      rcases Array.mem_push.1 hmem with hmem | heq
      · exact hidle hfree hmem
      · exact hne heq
  · intro key flight hmem
    rw [hrecords] at hmem
    rcases List.mem_append.1 hmem with hmem | hmem
    · exact .inr ⟨hmem, by simp [hstage]⟩
    · -- the new record is the one that the call leads from now on
      simp only [List.mem_singleton, Prod.mk.injEq] at hmem
      obtain ⟨rfl, rfl⟩ := hmem
      exact .inl ⟨rfl, rfl⟩
  · intro flight value hflight
    have hold : state.table.flights[flight]? = some (.landed value) := by
      rw [hflights, Array.getElem?_push] at hflight
      split at hflight
      · cases hflight
      · exact hflight
    exact .inr ⟨hold, (hkept hold).2, by simp [hstage]⟩
  · intro other hmem
    rw [hstarted] at hmem
    exact Array.mem_push.1 hmem

/-- A leader that takes its record away keeps the calls coherent. -/
theorem Coherent.release [BEq K] [LawfulBEq K] {flight : Nat} {ending : Ending R}
    (h : Coherent state) (hcall : state.calls[number]? = some call)
    (hstage : call.stage = .leading flight)
    (hworked : ∀ value, ending = .worked value → call.answer = some value)
    (hfired : ending = .cancelled → call.cancelled = true)
    (hcalls : following.calls = (state.setStage number (.closing flight ending)).calls)
    (htable : following.table = state.table.erase call.key)
    (hstarted : following.started = state.started) : Coherent following := by
  have hfit := h.fits number call hcall
  refine h.alter hcall { call with stage := .closing flight ending }
    (fun other ↦ by rw [hcalls, getElem?_setStage hcall]) ?_ ?_ ?_ ?_ ?_ ?_ ?_
  · rw [htable]
    exact h.distinct.sublist (List.filter_sublist.map Prod.fst)
  · rw [htable, hstarted]
    exact h.size
  · refine ⟨by simp, ?_, ?_, ?_, by simp [Call.Idle]⟩
    · rintro _ ⟨⟩
      rw [htable, hstarted]
      exact hfit.flying flight (by simp [Call.flying?, hstage])
    · rintro _ value ⟨⟩
      exact hworked value rfl
    · rintro (⟨⟨⟩⟩ | ⟨_, ⟨⟩⟩)
      exact hfired rfl
  · intro other found hne hfound
    have hfit' := h.fits other found hfound
    refine ⟨?_, ?_, hfit'.worked, hfit'.fired, ?_⟩
    · intro flight' hleading
      rw [htable]
      refine FlightTable.mem_records_erase.2 ⟨hfit'.recorded flight' hleading, ?_⟩
      intro hkey
      -- another leader for the key would have a second record of it
      exact hne (h.leads_unique ⟨found, hfound, hkey, hleading⟩ ⟨call, hcall, rfl, hstage⟩)
    · rw [htable, hstarted]
      exact hfit'.flying
    · rw [hstarted]
      exact hfit'.idle
  · intro key flight' hmem
    rw [htable] at hmem
    obtain ⟨hmem, hkey⟩ := FlightTable.mem_records_erase.1 hmem
    exact .inr ⟨hmem, fun hleads ↦ hkey hleads.1.symm⟩
  · intro flight' value hflight
    rw [htable] at hflight
    exact .inr ⟨hflight, by rw [hstarted], by simp [hstage]⟩
  · intro other hmem
    exact .inl (hstarted ▸ hmem)

/-- A leader that tells what became of its flight keeps the calls coherent. -/
theorem Coherent.close {flight : Nat} {ending : Ending R} (h : Coherent state)
    (hcall : state.calls[number]? = some call) (hstage : call.stage = .closing flight ending)
    (stage : CallStage R)
    (hended : ending.result?.elim (stage = .dropped) fun result ↦ stage = .returned result)
    (hcalls : following.calls = (state.setStage number stage).calls)
    (htable : following.table = state.table.resolve flight ending.status)
    (hstarted : following.started = state.started) : Coherent following := by
  have hfit := h.fits number call hcall
  have hflying : call.flying? = some flight := by simp [Call.flying?, hstage]
  refine h.alter hcall { call with stage }
    (fun other ↦ by rw [hcalls, getElem?_setStage hcall]) ?_ ?_ ?_ ?_ ?_ ?_ ?_
  · rw [htable]
    exact h.distinct
  · rw [htable, hstarted]
    simpa using h.size
  · cases ending with
    | worked value | dropped =>
        cases hended
        exact ⟨by simp, by simp [Call.flying?], by simp, by simp, by simp [Call.Idle]⟩
    | cancelled =>
        cases hended
        exact ⟨by simp, by simp [Call.flying?], by simp,
          fun _ ↦ hfit.fired (.inr ⟨flight, hstage⟩), by simp [Call.Idle]⟩
  · intro other found hne hfound
    have hfit' := h.fits other found hfound
    refine ⟨?_, ?_, hfit'.worked, hfit'.fired, ?_⟩
    · rw [htable]
      exact hfit'.recorded
    · intro flight' hflying'
      obtain ⟨hstart, haloft⟩ := hfit'.flying flight' hflying'
      -- nobody else flies the flight that is told
      have hflight : flight ≠ flight' := by
        rintro rfl
        exact hne (h.flying_unique hfound hcall hflying' hflying)
      rw [htable, hstarted, FlightTable.flights_resolve, Array.getElem?_setIfInBounds,
        if_neg hflight]
      exact ⟨hstart, haloft⟩
    · rw [hstarted]
      exact hfit'.idle
  · intro key flight' hmem
    rw [htable] at hmem
    exact .inr ⟨hmem, by simp [hstage]⟩
  · intro flight' value hflight
    rw [htable, FlightTable.flights_resolve, Array.getElem?_setIfInBounds] at hflight
    rw [hstarted]
    split at hflight
    · next heq =>
      subst heq
      split at hflight
      · cases ending with
        | worked answer =>
            cases hflight
            cases hended
            exact .inl ⟨(hfit.flying flight hflying).1, rfl, hfit.worked flight value hstage⟩
        | cancelled | dropped => cases hflight
      · cases hflight
    · exact .inr ⟨hflight, rfl, by simp [hstage]⟩
  · intro other hmem
    exact .inl (hstarted ▸ hmem)

end

variable [BEq K] [LawfulBEq K]

/-- Every change keeps the calls coherent. -/
theorem Coherent.move {state following : Calls K R} (h : Coherent state)
    (move : Move state following) : Coherent following := by
  cases move with
  | began key cancelled immediate => exact h.call key cancelled immediate
  | refused => exact h
  | delivered number call answer hcall hpending hnone =>
      refine h.touch _ (fun _ ↦ rfl) (fun _ ↦ rfl) ?_ (fun _ hfired ↦ hfired)
      intro found value hfound hvalue
      rw [hcall] at hfound
      cases hfound
      exact Call.answer_deliver hvalue hnone
  | fired number =>
      exact h.touch _ (fun _ ↦ rfl) (fun _ ↦ rfl) (fun _ _ _ hvalue ↦ hvalue) (fun _ _ ↦ rfl)
  | joined number call flight hcall hstage hmem =>
      exact h.idle hcall (.inl hstage) (.inl (.inr ⟨flight, rfl⟩)) rfl rfl rfl rfl
  | led number call hcall hstage hfree => exact h.lead hcall hstage hfree rfl rfl rfl rfl
  | released number call flight ending hcall hstage hworked hfired =>
      exact h.release hcall hstage hworked hfired rfl rfl rfl
  | closed number call flight ending result hcall hstage hresult =>
      exact h.close hcall hstage (.returned result) (by rw [hresult]; exact rfl) rfl rfl rfl
  | vanished number call flight hcall hstage =>
      exact h.close hcall hstage .dropped rfl rfl rfl rfl
  | took number call flight value hcall hstage hlanded =>
      exact h.idle hcall (.inr ⟨flight, hstage⟩) (.inr (.inr ⟨_, rfl, by simp⟩)) rfl rfl rfl rfl
  | readmitted number call flight hcall hstage hlost =>
      exact h.idle hcall (.inr ⟨flight, hstage⟩) (.inl (.inl rfl)) rfl rfl rfl rfl
  | left number call flight hcall hstage hcancelled =>
      exact h.idle hcall (.inr ⟨flight, hstage⟩) (.inr (.inr ⟨_, rfl, fun _ ↦ hcancelled⟩))
        rfl rfl rfl rfl
  | forsaken number call hcall hidle =>
      exact h.idle hcall hidle (.inr (.inl rfl)) rfl rfl rfl rfl

/-- Calls are coherent in every state of every history. -/
theorem History.coherent {states : List (Calls K R)} (h : History states) :
    ∀ state ∈ states, Coherent state := by
  induction h with
  | start =>
      intro state hmem
      rw [List.mem_singleton.1 hmem]
      exact coherent_empty
  | next hpast happly ih =>
      intro state hmem
      rcases List.mem_cons.1 hmem with rfl | hmem
      · exact (ih _ List.mem_cons_self).move (act?_move happly)
      · exact ih state hmem

end Calls

end ReadThrough
