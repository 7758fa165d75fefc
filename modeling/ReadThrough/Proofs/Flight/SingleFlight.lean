import ReadThrough.Proofs.Flight.Coherence

/-!
# One flight for each key

The main statement is `History.single_flight`: at every point of every history a key is on record
if and only if exactly one call leads for it, no two calls work for one key, every call that
returned was entitled to what it returned, and whoever waited on a flight that landed is served by
it. What a call was entitled to depends on when it began, so the invariants here speak of the whole
history: `Later` says what one state keeps of another that came before it, and `Story` where the
flight of a waiter was met.
-/

namespace ReadThrough.Calls

variable {K R : Type}

/-! ## What changes leave alone -/

/-- What a change makes of the stage of one call. -/
inductive Turn (state following : Calls K R) (call : Call K R) : CallStage R → Prop where
  | joined (flight : Nat) :
      call.stage = .entering → (call.key, flight) ∈ state.table.records →
      Turn state following call (.waiting flight)
  | led (flight : Nat) : call.stage = .entering → Turn state following call (.leading flight)
  | released (flight : Nat) (ending : Ending R) :
      call.stage = .leading flight → Turn state following call (.closing flight ending)
  | closed (flight : Nat) (ending : Ending R) (result : CallResult R) :
      call.stage = .closing flight ending → ending.result? = some result →
      following.table = state.table.resolve flight ending.status →
      Turn state following call (.returned result)
  | vanished (flight : Nat) :
      call.stage = .closing flight .dropped → Turn state following call .dropped
  | took (flight : Nat) (value : R) :
      call.stage = .waiting flight → state.table.flights[flight]? = some (.landed value) →
      Turn state following call (.returned (.outcome value))
  | readmitted (flight : Nat) :
      call.stage = .waiting flight → state.table.status flight = .lost →
      Turn state following call .entering
  | left (flight : Nat) :
      call.stage = .waiting flight → Turn state following call (.returned .cancelled)
  | forsaken : call.Idle → Turn state following call .dropped

/-- Only a call that has not ended changes its stage. -/
theorem Turn.pending {state following : Calls K R} {call : Call K R} {stage : CallStage R}
    (turn : Turn state following call stage) : call.pending = true := by
  cases turn with
  | forsaken hidle => rcases hidle with hstage | ⟨flight, hstage⟩ <;> simp [Call.pending, hstage]
  | joined _ hstage | led _ hstage | released _ _ hstage | closed _ _ _ hstage
  | vanished _ hstage | took _ _ hstage | readmitted _ hstage | left _ hstage =>
      simp [Call.pending, hstage]

/-- A change keeps every call with its key and its answer, and its stage or what that turns into.
Work is started for a call only when it asks for its key. -/
structure Kept (state following : Calls K R) (number : Nat) (call after : Call K R) : Prop where
  key : after.key = call.key
  answer : ∀ value, call.answer = some value → after.answer = some value
  stage : after.stage = call.stage ∨ Turn state following call after.stage
  started : number ∈ following.started → number ∈ state.started ∨ call.stage = .entering

/-- Only a call that is about to ask for its key has its work started. -/
theorem Kept.unstarted {state following : Calls K R} {number : Nat} {call after : Call K R}
    (h : Kept state following number call after) (hnot : number ∉ state.started)
    (hstage : call.stage ≠ .entering) : number ∉ following.started := by
  intro hstarted
  rcases h.started hstarted with hbefore | hentering
  · exact hnot hbefore
  · exact hstage hentering

/-- A change of one call alone that starts no work keeps the others as they are. -/
theorem kept_of_setStage {state following : Calls K R} {number other : Nat} {mover call : Call K R}
    {stage : CallStage R} (hmover : state.calls[number]? = some mover)
    (hcall : state.calls[other]? = some call)
    (hcalls : following.calls = (state.setStage number stage).calls)
    (hstarted : following.started = state.started)
    (hturn : Turn state following mover stage) :
    ∃ after, following.calls[other]? = some after ∧ Kept state following other call after := by
  rw [hcalls, getElem?_setStage hmover]
  by_cases heq : other = number
  · subst heq
    rw [hmover] at hcall
    cases hcall
    exact ⟨_, if_pos rfl, rfl, fun _ h ↦ h, .inr hturn, fun h ↦ .inl (hstarted ▸ h)⟩
  · exact ⟨call, by rw [if_neg heq]; exact hcall, rfl, fun _ h ↦ h, .inl rfl,
      fun h ↦ .inl (hstarted ▸ h)⟩

/-- Every change keeps every call. -/
theorem Move.kept {state following : Calls K R} [BEq K] (move : Move state following)
    {number : Nat} {call : Call K R} (hcall : state.calls[number]? = some call) :
    ∃ after, following.calls[number]? = some after ∧ Kept state following number call after := by
  cases move with
  | began key cancelled immediate =>
      obtain ⟨hlt, -⟩ := Array.getElem?_eq_some_iff.1 hcall
      refine ⟨call, ?_, rfl, fun _ h ↦ h, .inl rfl, .inl⟩
      simp only [Calls.call, Array.getElem?_push]
      rw [if_neg (Nat.ne_of_lt hlt)]
      exact hcall
  | refused => exact ⟨call, hcall, rfl, fun _ h ↦ h, .inl rfl, .inl⟩
  | delivered other found answer hfound hpending hnone =>
      simp only [Array.getElem?_modify]
      by_cases heq : other = number
      · subst heq
        rw [hfound] at hcall
        cases hcall
        refine ⟨{ call with delivered := some answer }, by simp [hfound], rfl, ?_, .inl rfl, .inl⟩
        intro value hvalue
        exact Call.answer_deliver hvalue hnone
      · exact ⟨call, by rw [if_neg heq]; exact hcall, rfl, fun _ h ↦ h, .inl rfl, .inl⟩
  | fired other =>
      simp only [cancel, Array.getElem?_modify]
      by_cases heq : other = number
      · exact ⟨{ call with cancelled := true }, by simp [heq, hcall], rfl, fun _ h ↦ h, .inl rfl,
          .inl⟩
      · exact ⟨call, by rw [if_neg heq]; exact hcall, rfl, fun _ h ↦ h, .inl rfl, .inl⟩
  | joined other mover flight hmover hstage hmem =>
      exact kept_of_setStage hmover hcall rfl rfl (.joined flight hstage hmem)
  | led other mover hmover hstage hfree =>
      by_cases heq : number = other
      · subst heq
        rw [hmover] at hcall
        cases hcall
        exact ⟨{ call with stage := .leading state.table.flights.size },
          (getElem?_setStage hmover).trans (if_pos rfl), rfl, fun _ h ↦ h,
          .inr (.led _ hstage), fun _ ↦ .inr hstage⟩
      · refine ⟨call, (getElem?_setStage hmover).trans ((if_neg heq).trans hcall), rfl,
          fun _ h ↦ h, .inl rfl, ?_⟩
        intro hmem
        rcases Array.mem_push.1 hmem with hmem | hnumber
        · exact .inl hmem
        · exact absurd hnumber heq
  | released other mover flight ending hmover hstage hworked hfired =>
      exact kept_of_setStage hmover hcall rfl rfl (.released flight ending hstage)
  | closed other mover flight ending result hmover hstage hresult =>
      exact kept_of_setStage hmover hcall rfl rfl (.closed flight ending result hstage hresult rfl)
  | vanished other mover flight hmover hstage =>
      exact kept_of_setStage hmover hcall rfl rfl (.vanished flight hstage)
  | took other mover flight value hmover hstage hlanded =>
      exact kept_of_setStage hmover hcall rfl rfl (.took flight value hstage hlanded)
  | readmitted other mover flight hmover hstage hlost =>
      exact kept_of_setStage hmover hcall rfl rfl (.readmitted flight hstage hlost)
  | left other mover flight hmover hstage hcancelled =>
      exact kept_of_setStage hmover hcall rfl rfl (.left flight hstage)
  | forsaken other mover hmover hidle =>
      exact kept_of_setStage hmover hcall rfl rfl (.forsaken hidle)

/-- No change makes a call other than one that is about to ask for its key. -/
theorem Move.fresh {state following : Calls K R} [BEq K] (move : Move state following)
    {number : Nat} {call : Call K R} (hcall : following.calls[number]? = some call) :
    (∃ before, state.calls[number]? = some before) ∨ call.stage = .entering := by
  have hold : ∀ {calls : Array (Call K R)}, calls.size = state.calls.size →
      calls[number]? = some call → ∃ before, state.calls[number]? = some before := by
    intro calls hsize hfound
    obtain ⟨hlt, -⟩ := Array.getElem?_eq_some_iff.1 hfound
    exact ⟨state.calls[number], Array.getElem?_eq_getElem (hsize ▸ hlt)⟩
  cases move with
  | began key cancelled immediate =>
      simp only [Calls.call, Array.getElem?_push] at hcall
      split at hcall
      · cases hcall
        exact .inr rfl
      · exact .inl ⟨call, hcall⟩
  | refused => exact .inl ⟨call, hcall⟩
  | delivered | fired | joined | led | released | closed | vanished | took | readmitted | left
  | forsaken => exact .inl (hold Array.size_modify hcall)

/-- What a state keeps of one that came before it: the calls with their keys, the leaders of the
flights, and what became of a flight once it was told. -/
structure Later (earlier state : Calls K R) : Prop where
  calls : ∀ (number : Nat) (call : Call K R), earlier.calls[number]? = some call →
    ∃ after, state.calls[number]? = some after ∧ after.key = call.key
  started : ∀ flight number : Nat, earlier.started[flight]? = some number →
    state.started[flight]? = some number
  flights : ∀ (flight : Nat) (status : Flight R), earlier.table.flights[flight]? = some status →
    status ≠ .aloft → state.table.flights[flight]? = some status

namespace Later

theorem refl (state : Calls K R) : Later state state where
  calls := fun _ call hcall ↦ ⟨call, hcall, rfl⟩
  started := fun _ _ h ↦ h
  flights := fun _ _ h _ ↦ h

theorem trans {first second third : Calls K R} (h : Later first second)
    (h' : Later second third) : Later first third where
  calls := by
    intro number call hcall
    obtain ⟨after, hafter, hkey⟩ := h.calls number call hcall
    obtain ⟨last, hlast, hkey'⟩ := h'.calls number after hafter
    exact ⟨last, hlast, hkey'.trans hkey⟩
  started := fun flight number hstart ↦ h'.started flight number (h.started flight number hstart)
  flights := fun flight status hflight hne ↦
    h'.flights flight status (h.flights flight status hflight hne) hne

/-- No call disappears. -/
theorem size_le {earlier state : Calls K R} (h : Later earlier state) :
    earlier.calls.size ≤ state.calls.size := by
  by_contra hlt
  have hbound : state.calls.size < earlier.calls.size := Nat.not_le.1 hlt
  obtain ⟨after, hafter, -⟩ := h.calls _ _ (Array.getElem?_eq_getElem hbound)
  simp at hafter

end Later

/-- Every change of coherent calls goes to a later state. -/
theorem Move.later {state following : Calls K R} [BEq K] (h : Coherent state)
    (move : Move state following) : Later state following where
  calls := by
    intro number call hcall
    obtain ⟨after, hafter, hkept⟩ := move.kept hcall
    exact ⟨after, hafter, hkept.key⟩
  started := by
    intro flight number hstart
    cases move with
    | led =>
        have hlt := (Array.getElem?_eq_some_iff.1 hstart).1
        exact (Array.getElem?_push_lt hlt).trans (Array.getElem?_eq_getElem hlt ▸ hstart)
    | began | refused | delivered | fired | joined | released | closed | vanished | took
    | readmitted | left | forsaken => exact hstart
  flights := by
    -- only a flight that is aloft has a leader that can tell what becomes of it
    have htold : ∀ {number : Nat} {call : Call K R} {flight : Nat} {ending : Ending R},
        state.calls[number]? = some call → call.stage = .closing flight ending →
        ∀ (told : Nat) (status ending' : Flight R), state.table.flights[told]? = some status →
          status ≠ .aloft →
          (state.table.resolve flight ending').flights[told]? = some status := by
      intro number call flight ending hcall hstage told status ending' hflight hne
      have haloft := ((h.fits number call hcall).flying flight (by simp [Call.flying?, hstage])).2
      have hother : flight ≠ told := by
        rintro rfl
        rw [haloft] at hflight
        cases hflight
        exact hne rfl
      rw [FlightTable.flights_resolve, Array.getElem?_setIfInBounds, if_neg hother]
      exact hflight
    intro told status hflight hne
    cases move with
    | led =>
        have hlt := (Array.getElem?_eq_some_iff.1 hflight).1
        exact (Array.getElem?_push_lt hlt).trans (Array.getElem?_eq_getElem hlt ▸ hflight)
    | closed number call flight ending result hcall hstage hresult =>
        exact htold hcall hstage told status _ hflight hne
    | vanished number call flight hcall hstage => exact htold hcall hstage told status _ hflight hne
    | began | refused | delivered | fired | joined | released | took | readmitted | left
    | forsaken => exact hflight

/-! ## Histories -/

section

variable [BEq K] [LawfulBEq K] {states : List (Calls K R)}

omit [LawfulBEq K] in
/-- A history goes on with whatever happens next. -/
theorem History.replay (h : History states) {actions : List (Action K R)}
    {all : List (Calls K R)} (hrun : replay states actions = some all) : History all := by
  induction actions generalizing states with
  | nil =>
      cases states <;> cases hrun <;> exact h
  | cons action rest ih =>
      cases states with
      | nil => cases hrun
      | cons state past =>
          obtain ⟨following, hact, hrest⟩ := Option.bind_eq_some_iff.1 hrun
          exact ih (h.next hact) hrest

/-- The states of a history come one after the other. -/
theorem History.pairwise (h : History states) :
    states.Pairwise fun state earlier ↦ Later earlier state := by
  induction h with
  | start => exact List.pairwise_singleton _ _
  | next hpast happly ih =>
      have hlater := (act?_move happly).later (hpast.coherent _ List.mem_cons_self)
      refine List.pairwise_cons.2 ⟨?_, ih⟩
      intro earlier hmem
      rcases List.mem_cons.1 hmem with rfl | hmem
      · exact hlater
      · exact ((List.pairwise_cons.1 ih).1 earlier hmem).trans hlater

/-- The latest state of a history is later than all of them. -/
theorem History.later {state earlier : Calls K R} {past : List (Calls K R)}
    (h : History (state :: past)) (hmem : earlier ∈ state :: past) : Later earlier state := by
  rcases List.mem_cons.1 hmem with rfl | hmem
  · exact .refl _
  · exact (List.pairwise_cons.1 h.pairwise).1 earlier hmem

/-- Of two states of a history one is later than the other. -/
theorem History.total (h : History states) {first second : Calls K R} (hfirst : first ∈ states)
    (hsecond : second ∈ states) : Later first second ∨ Later second first := by
  have hdown : states.Pairwise fun a b ↦ Later a b ∨ Later b a := h.pairwise.imp .inr
  have hup : states.Pairwise fun a b ↦ Later b a ∨ Later a b := h.pairwise.imp .inl
  exact List.Pairwise.forall_of_forall_of_flip (fun state _ ↦ .inl (.refl state)) hdown hup
    hfirst hsecond

end

/-- A call met a flight for a key on record after it began. -/
def Met (states : List (Calls K R)) (number : Nat) (key : K) (flight : Nat) : Prop :=
  ∃ moment ∈ states, number < moment.calls.size ∧ (key, flight) ∈ moment.table.records

/-- Where a call met the flight it waits on, and how it came by the outcome it returned. -/
structure Story (states : List (Calls K R)) (state : Calls K R) (number : Nat)
    (call : Call K R) : Prop where
  waits : ∀ flight, call.stage = .waiting flight → Met states number call.key flight
  outcome : ∀ value, call.stage = .returned (.outcome value) →
    ∃ flight : Nat, state.table.flights[flight]? = some (.landed value) ∧
      (state.started[flight]? = some number ∧ call.answer = some value ∨
        number ∉ state.started ∧ Met states number call.key flight)

theorem Met.cons {states : List (Calls K R)} {number flight : Nat} {key : K}
    (h : Met states number key flight) (state : Calls K R) :
    Met (state :: states) number key flight := by
  obtain ⟨moment, hmem, hmet⟩ := h
  exact ⟨moment, List.mem_cons_of_mem _ hmem, hmet⟩

/-- A call that stays where it is keeps its story. -/
theorem Story.same {states : List (Calls K R)} {state following : Calls K R} {number : Nat}
    {call after : Call K R} (h : Story states state number call) (hlater : Later state following)
    (hkept : Kept state following number call after) (hsame : after.stage = call.stage) :
    Story (following :: states) following number after where
  waits := by
    intro flight hwaiting
    rw [hkept.key]
    exact (h.waits flight (hsame ▸ hwaiting)).cons following
  outcome := by
    intro value hreturned
    rw [hsame] at hreturned
    obtain ⟨flight, hlanded, hway⟩ := h.outcome value hreturned
    refine ⟨flight, hlater.flights flight _ hlanded (by simp), ?_⟩
    rcases hway with ⟨hstart, hanswer⟩ | ⟨hnot, hmet⟩
    · exact .inl ⟨hlater.started flight number hstart, hkept.answer value hanswer⟩
    · exact .inr ⟨hkept.unstarted hnot (by simp [hreturned]), hkept.key ▸ hmet.cons following⟩

/-- A call that moves on has a story: it met the flight that it waits on just now, and the outcome
that it returns is that of its own flight, or of the one that it waited on. -/
theorem Story.turned {states : List (Calls K R)} {state following : Calls K R} {number : Nat}
    {call after : Call K R} (hstory : Story states state number call) (hmem : state ∈ states)
    (h : Coherent state) (hlater : Later state following)
    (hcall : state.calls[number]? = some call)
    (hkept : Kept state following number call after)
    (hturn : Turn state following call after.stage) :
    Story (following :: states) following number after := by
  cases hstage : after.stage with
  | entering | leading | closing | dropped => exact ⟨by simp [hstage], by simp [hstage]⟩
  | waiting flight =>
      refine ⟨?_, by simp [hstage]⟩
      intro other hwaiting
      rw [hstage] at hwaiting hturn
      cases hwaiting
      cases hturn with
      | joined _ hentering hrecord =>
          rw [hkept.key]
          exact ⟨state, List.mem_cons_of_mem _ hmem,
            (Array.getElem?_eq_some_iff.1 hcall).1, hrecord⟩
  | returned result =>
      refine ⟨by simp [hstage], ?_⟩
      intro value hreturned
      rw [hstage] at hreturned hturn
      cases hreturned
      cases hturn with
      | closed flight ending _ hclosing hresult htable =>
          cases ending with
          | cancelled | dropped => cases hresult
          | worked answer =>
              cases hresult
              have hfit := h.fits number call hcall
              obtain ⟨hstart, haloft⟩ := hfit.flying flight (by simp [Call.flying?, hclosing])
              have hlt := (Array.getElem?_eq_some_iff.1 haloft).1
              refine ⟨flight, ?_, .inl ⟨hlater.started flight number hstart,
                hkept.answer value (hfit.worked flight value hclosing)⟩⟩
              rw [htable, FlightTable.flights_resolve]
              exact Array.getElem?_setIfInBounds_self_of_lt hlt
      | took flight _ hwaiting hlanded =>
          have hnot := (h.fits number call hcall).idle (.inr ⟨flight, hwaiting⟩)
          refine ⟨flight, hlater.flights flight _ hlanded (by simp),
            .inr ⟨hkept.unstarted hnot (by simp [hwaiting]), ?_⟩⟩
          rw [hkept.key]
          exact (hstory.waits flight hwaiting).cons following

/-- A change carries the stories of all calls on. -/
theorem Story.move [BEq K] {states : List (Calls K R)} {state following : Calls K R}
    (hmem : state ∈ states) (h : Coherent state)
    (hstory : ∀ (number : Nat) (call : Call K R), state.calls[number]? = some call →
      Story states state number call)
    (move : Move state following) {number : Nat} {after : Call K R}
    (hafter : following.calls[number]? = some after) :
    Story (following :: states) following number after := by
  have hlater := move.later h
  rcases move.fresh hafter with ⟨call, hcall⟩ | hentering
  · obtain ⟨found, hfound, hkept⟩ := move.kept hcall
    rw [hafter] at hfound
    cases hfound
    rcases hkept.stage with hsame | hturn
    · exact (hstory number call hcall).same hlater hkept hsame
    · exact (hstory number call hcall).turned hmem h hlater hcall hkept hturn
  · exact ⟨by simp [hentering], by simp [hentering]⟩

/-- Every call of every state of a history has its story. -/
theorem History.story [BEq K] [LawfulBEq K] {state : Calls K R} {past : List (Calls K R)}
    (h : History (state :: past)) {number : Nat} {call : Call K R}
    (hcall : state.calls[number]? = some call) : Story (state :: past) state number call := by
  generalize hstates : state :: past = states at h
  induction h generalizing state past number call with
  | start =>
      cases hstates
      simp [empty] at hcall
  | next hpast happly ih =>
      cases hstates
      exact Story.move List.mem_cons_self (hpast.coherent _ List.mem_cons_self)
        (fun _ _ hfound ↦ ih hfound rfl) (act?_move happly) hcall

/-- The stages of a call that waited on a flight, unless the flight was lost. -/
def Onward (state : Calls K R) (flight : Nat) (stage : CallStage R) : Prop :=
  stage = .waiting flight ∨ stage = .dropped ∨ stage = .returned .cancelled ∨
    ∃ value, stage = .returned (.outcome value) ∧
      state.table.flights[flight]? = some (.landed value)

/-- What has become of a call that waited on a flight, unless the flight was lost. -/
def Awaited (state : Calls K R) (number flight : Nat) : Prop :=
  (∃ leader : Nat, state.started[flight]? = some leader) ∧ number ∉ state.started ∧
    ∃ call, state.calls[number]? = some call ∧ Onward state flight call.stage

/-- A change leaves a call that waited on a flight where it was or moves it on, unless the flight
was lost. -/
theorem Awaited.move [BEq K] {state following : Calls K R} {number flight : Nat}
    (hawaited : Awaited state number flight) (h : Coherent state) (move : Move state following) :
    following.table.flights[flight]? = some .lost ∨ Awaited following number flight := by
  obtain ⟨⟨leader, hstart⟩, hnot, call, hcall, hstage⟩ := hawaited
  have hlt : flight < state.table.flights.size := by
    rw [← h.size]
    exact (Array.getElem?_eq_some_iff.1 hstart).1
  have hstart' := (move.later h).started flight leader hstart
  obtain ⟨after, hafter, hkept⟩ := move.kept hcall
  have hnot' : number ∉ following.started := by
    refine hkept.unstarted hnot fun hentering ↦ ?_
    simp [Onward, hentering] at hstage
  have hstill : Onward following flight after.stage →
      following.table.flights[flight]? = some .lost ∨ Awaited following number flight :=
    fun hstage ↦ .inr ⟨⟨leader, hstart'⟩, hnot', after, hafter, hstage⟩
  -- a call that ended stays as it is
  have hended : call.pending = false → after.stage = call.stage := by
    intro hended
    rcases hkept.stage with hsame | hturn
    · exact hsame
    · simp [hturn.pending] at hended
  rcases hstage with hwaiting | hdropped | hcancelled | ⟨value, hreturned, hlanded⟩
  · rcases hkept.stage with hsame | hturn
    · exact hstill (.inl (hsame.trans hwaiting))
    · generalize hstage : after.stage = stage at hturn
      cases hturn with
      | took other value hother hlanded =>
          rw [hwaiting] at hother
          cases hother
          have hlanded' := (move.later h).flights flight _ hlanded (by simp)
          exact hstill (.inr (.inr (.inr ⟨value, hstage, hlanded'⟩)))
      | readmitted other hother hlost =>
          rw [hwaiting] at hother
          cases hother
          -- the flight exists, so that it reads as lost means that it was lost
          have hlost' : state.table.flights[flight]? = some .lost := by
            rw [FlightTable.status, Array.getD_eq_getD_getElem?,
              Array.getElem?_eq_getElem hlt] at hlost
            exact (Array.getElem?_eq_getElem hlt).trans (congrArg some hlost)
          exact .inl ((move.later h).flights flight _ hlost' (by simp))
      | left => exact hstill (.inr (.inr (.inl hstage)))
      | forsaken => exact hstill (.inr (.inl hstage))
      | joined _ hother | led _ hother | released _ _ hother | closed _ _ _ hother
      | vanished _ hother =>
          rw [hwaiting] at hother
          cases hother
  · have hsame := hended (by simp [Call.pending, hdropped])
    exact hstill (.inr (.inl (hsame.trans hdropped)))
  · have hsame := hended (by simp [Call.pending, hcancelled])
    exact hstill (.inr (.inr (.inl (hsame.trans hcancelled))))
  · have hsame := hended (by simp [Call.pending, hreturned])
    have hlanded' := (move.later h).flights flight _ hlanded (by simp)
    exact hstill (.inr (.inr (.inr ⟨value, hsame.trans hreturned, hlanded'⟩)))

/-- The flight that a call met has a leader, with the key that the call asked for. -/
theorem Met.leader [BEq K] [LawfulBEq K] {state : Calls K R} {past : List (Calls K R)}
    (h : History (state :: past)) {number flight : Nat} {key : K}
    (hmet : Met (state :: past) number key flight) :
    ∃ leader : Nat, state.started[flight]? = some leader ∧
      ∃ moment ∈ state :: past, number < moment.calls.size ∧ moment.Leads leader key flight := by
  obtain ⟨moment, hmem, hbegan, hrecord⟩ := hmet
  obtain ⟨leader, led, hled, hkey, hleading⟩ := (h.coherent moment hmem).led key flight hrecord
  obtain ⟨hstart, -⟩ := ((h.coherent moment hmem).fits leader led hled).flying flight
    (by simp [Call.flying?, hleading])
  exact ⟨leader, (h.later hmem).started flight leader hstart, moment, hmem, hbegan, led, hled,
    hkey, hleading⟩

/-- Whoever waited on a flight is accounted for, unless the flight was lost. -/
theorem History.awaited [BEq K] [LawfulBEq K] {states : List (Calls K R)} (h : History states)
    {state : Calls K R} (hhead : states.head? = some state) {moment : Calls K R}
    (hmem : moment ∈ states) {number flight : Nat} (hwaits : moment.WaitsOn number flight) :
    state.table.flights[flight]? = some .lost ∨ Awaited state number flight := by
  induction h generalizing state with
  | start =>
      obtain ⟨call, hcall, -⟩ := hwaits
      rw [List.mem_singleton.1 hmem] at hcall
      simp [empty] at hcall
  | next hpast happly ih =>
      cases hhead
      have hcoherent := hpast.coherent _ List.mem_cons_self
      rcases List.mem_cons.1 hmem with rfl | hmem
      · have hnow := History.next hpast happly
        obtain ⟨call, hcall, hwaiting⟩ := hwaits
        obtain ⟨leader, hstart, -⟩ := ((hnow.story hcall).waits flight hwaiting).leader hnow
        have hidle := ((hcoherent.move (act?_move happly)).fits number call hcall).idle
        exact .inr ⟨⟨leader, hstart⟩, hidle (.inr ⟨flight, hwaiting⟩), call, hcall,
          .inl hwaiting⟩
      · rcases ih rfl hmem with hlost | hawaited
        · exact .inl (((act?_move happly).later hcoherent).flights flight _ hlost (by simp))
        · exact hawaited.move hcoherent (act?_move happly)

/-! ## Single flight -/

/-- Why a call may return what it returns: its own work answered so; a call for the same key led a
flight when this one had begun, and its work answered so; or its token fired. -/
inductive Entitled (states : List (Calls K R)) (state : Calls K R) (number : Nat)
    (call : Call K R) : CallResult R → Prop where
  | own (flight : Nat) (value : R) :
      state.started[flight]? = some number → call.answer = some value →
      Entitled states state number call (.outcome value)
  | shared (flight leader : Nat) (value : R) (led : Call K R) (moment : Calls K R) :
      moment ∈ states → number < moment.calls.size → moment.Leads leader call.key flight →
      (∀ earlier ∈ states, earlier.calls.size ≤ number →
        earlier.table.flights[flight]? ≠ some (.landed value)) →
      number ∉ state.started → state.calls[leader]? = some led →
      led.stage = .returned (.outcome value) → led.answer = some value →
      Entitled states state number call (.outcome value)
  | cancelled : call.cancelled = true → Entitled states state number call .cancelled

/-- A call that waited on a flight that landed was served without work of its own: it returned the
outcome of the flight, or takes it as soon as it moves, unless its token fired or it was given
up. -/
inductive Served [BEq K] (state : Calls K R) (number flight : Nat) (value : R)
    (call : Call K R) : Prop where
  | returned : call.stage = .returned (.outcome value) → Served state number flight value call
  | ready (following : Calls K R) :
      call.stage = .waiting flight → state.attend? number = some following →
      following.calls[number]? = some { call with stage := .returned (.outcome value) } →
      Served state number flight value call
  | cancelled :
      call.stage = .returned .cancelled → call.cancelled = true →
      Served state number flight value call
  | dropped : call.stage = .dropped → Served state number flight value call

/-- A key is on record if and only if exactly one call leads for it. -/
theorem Coherent.record_iff {state : Calls K R} (h : Coherent state) (key : K) :
    (∃ flight, (key, flight) ∈ state.table.records) ↔
      ∃! number, ∃ flight, state.Leads number key flight := by
  constructor
  · rintro ⟨flight, hrecord⟩
    obtain ⟨leader, hleads⟩ := h.led key flight hrecord
    refine ⟨leader, ⟨flight, hleads⟩, ?_⟩
    rintro other ⟨flight', hleads'⟩
    exact h.leads_unique hleads' hleads
  · rintro ⟨leader, ⟨flight, call, hcall, rfl, hstage⟩, -⟩
    exact ⟨flight, (h.fits leader call hcall).recorded flight hstage⟩

/-- Who works for a key leads for it. -/
theorem Coherent.works_leads {state : Calls K R} (h : Coherent state) {number : Nat} {key : K}
    (hworks : state.Works number key) : ∃ flight, state.Leads number key flight := by
  obtain ⟨hstarted, call, hcall, hkey, hpending, hclosing⟩ := hworks
  have hidle := (h.fits number call hcall).idle
  cases hstage : call.stage with
  | leading flight => exact ⟨flight, call, hcall, hkey, hstage⟩
  | entering => exact absurd hstarted (hidle (.inl hstage))
  | waiting flight => exact absurd hstarted (hidle (.inr ⟨flight, hstage⟩))
  | closing flight ending => exact absurd hstage (hclosing flight ending)
  | returned | dropped => simp [Call.pending, hstage] at hpending

section

variable [BEq K] [LawfulBEq K] {state : Calls K R} {past : List (Calls K R)}

/-- Every call that returned was entitled to what it returned. -/
theorem History.entitled (h : History (state :: past)) {number : Nat} {call : Call K R}
    {result : CallResult R} (hcall : state.calls[number]? = some call)
    (hstage : call.stage = .returned result) :
    Entitled (state :: past) state number call result := by
  have hcoherent := h.coherent state List.mem_cons_self
  cases result with
  | cancelled => exact .cancelled ((hcoherent.fits number call hcall).fired (.inl hstage))
  | outcome value =>
      obtain ⟨flight, hlanded, ⟨hstart, hanswer⟩ | ⟨hnot, hmet⟩⟩ :=
        (h.story hcall).outcome value hstage
      · exact .own flight value hstart hanswer
      · obtain ⟨leader, hstart, moment, hmem, hbegan, hleads⟩ := hmet.leader h
        obtain ⟨landed, led, hstart', hled, hreturned, hanswer⟩ :=
          hcoherent.landed flight value hlanded
        rw [hstart] at hstart'
        cases hstart'
        refine .shared flight leader value led moment hmem hbegan hleads ?_ hnot hled hreturned
          hanswer
        -- a flight that was over before the call began would not be aloft when the call met it
        intro earlier hearlier hsize hover
        rcases h.total hearlier hmem with hlater | hlater
        · obtain ⟨leading, hleading, -, hflying⟩ := hleads
          have haloft := (((h.coherent moment hmem).fits leader leading hleading).flying flight
            (by simp [Call.flying?, hflying])).2
          rw [hlater.flights flight _ hover (by simp)] at haloft
          cases haloft
        · have := hlater.size_le
          omega

/-- Whoever waited on a flight that landed is served, and its own work was not started. -/
theorem History.served (h : History (state :: past)) {moment : Calls K R}
    (hmem : moment ∈ state :: past) {number flight : Nat} {value : R}
    (hwaits : moment.WaitsOn number flight)
    (hlanded : state.table.flights[flight]? = some (.landed value)) :
    number ∉ state.started ∧
      ∃ call, state.calls[number]? = some call ∧ Served state number flight value call := by
  have hcoherent := h.coherent state List.mem_cons_self
  rcases h.awaited rfl hmem hwaits with hlost | ⟨-, hnot, call, hcall, hstage⟩
  · rw [hlanded] at hlost
    cases hlost
  · refine ⟨hnot, call, hcall, ?_⟩
    rcases hstage with hwaiting | hdropped | hcancelled | ⟨value', hreturned, hlanded'⟩
    · refine .ready (state.finish number (.outcome value)) hwaiting ?_ ?_
      · simp [attend?, hcall, hwaiting, FlightTable.status_eq_landed.2 hlanded]
      · exact (getElem?_setStage hcall).trans (if_pos rfl)
    · exact .dropped hdropped
    · exact .cancelled hcancelled ((hcoherent.fits number call hcall).fired (.inl hcancelled))
    · rw [hlanded] at hlanded'
      cases hlanded'
      exact .returned hreturned

/-- Single flight: a key is on record if and only if exactly one call leads for it, at most one call
works for it, every call that returned was entitled to what it returned, and whoever waited on a
flight that landed is served by it. -/
theorem History.single_flight (h : History (state :: past)) :
    (∀ key, (∃ flight, (key, flight) ∈ state.table.records) ↔
      ∃! number, ∃ flight, state.Leads number key flight) ∧
    (∀ key first second, state.Works first key → state.Works second key → first = second) ∧
    (∀ (number : Nat) (call : Call K R) (result : CallResult R),
      state.calls[number]? = some call → call.stage = .returned result →
      Entitled (state :: past) state number call result) ∧
    (∀ moment ∈ state :: past, ∀ (number flight : Nat) (value : R),
      moment.WaitsOn number flight → state.table.flights[flight]? = some (.landed value) →
      (∃ (leader : Nat) (led : Call K R), state.started[flight]? = some leader ∧
        state.calls[leader]? = some led ∧ led.stage = .returned (.outcome value)) ∧
      number ∉ state.started ∧
        ∃ call, state.calls[number]? = some call ∧ Served state number flight value call) := by
  have hcoherent := h.coherent state List.mem_cons_self
  refine ⟨hcoherent.record_iff, ?_, fun _ _ _ hcall hstage ↦ h.entitled hcall hstage, ?_⟩
  · intro key first second hfirst hsecond
    obtain ⟨flight, hleads⟩ := hcoherent.works_leads hfirst
    obtain ⟨other, hleads'⟩ := hcoherent.works_leads hsecond
    exact hcoherent.leads_unique hleads hleads'
  · intro moment hmem number flight value hwaits hlanded
    obtain ⟨leader, led, hstart, hled, hreturned, -⟩ := hcoherent.landed flight value hlanded
    exact ⟨⟨leader, led, hstart, hled, hreturned⟩, h.served hmem hwaits hlanded⟩

end

/-- Three calls for one key: the leader is cancelled, a waiter takes the lead over and answers. -/
def handOver : List (Action Nat Nat) :=
  [.call 5 false none, .call 5 false none, .call 5 false none, .enter 0, .enter 1, .enter 2,
    .cancel 0, .abandon 0, .close 0, .attend 1, .enter 1, .attend 2, .enter 2, .deliver 1 7,
    .conclude 1, .close 1, .attend 2]

/-- Where `handOver` ends. -/
def handedOver : Calls Nat Nat :=
  ⟨⟨[], #[.lost, .landed 7], 2, 3⟩,
    #[⟨5, true, .returned .cancelled, none, none⟩,
      ⟨5, false, .returned (.outcome 7), none, some 7⟩,
      ⟨5, false, .returned (.outcome 7), none, none⟩],
    #[0, 1], #[0, 1, 2]⟩

/-- The third call waited on both flights and may return what the second one answered, and nobody
leads for the key any longer. -/
theorem single_flight_of_three : ∃ past, replay [empty] handOver = some (handedOver :: past) ∧
    Entitled (handedOver :: past) handedOver 2 ⟨5, false, .returned (.outcome 7), none, none⟩
      (.outcome 7) ∧
    ¬ ∃! number, ∃ flight, handedOver.Leads number 5 flight := by
  obtain ⟨past, hrun⟩ : ∃ past, replay [empty] handOver = some (handedOver :: past) := ⟨_, rfl⟩
  obtain ⟨hrecord, -, hentitled, -⟩ := History.single_flight (History.start.replay hrun)
  refine ⟨past, hrun, hentitled 2 _ _ rfl rfl, ?_⟩
  rw [← hrecord]
  rintro ⟨flight, ⟨⟩⟩

end ReadThrough.Calls
