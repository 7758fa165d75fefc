import ReadThrough.Proofs.Cluster.Stations

/-!
# Turns at a station

On a node that fetches nothing, a get that has its turn makes few transitions before it ends or
rests (`Station.effort`). It rests where its flight is aloft or its loader keeps it waiting
(`step?_eq_none`), and goes on resting until its flight is over, time passes, or someone does
something to it.
-/

namespace ReadThrough

/-- The name of the group that an event is about. -/
def Event.group : Event → String
  | .hit group .. | .load _ group _ | .loadFailed group .. | .fetch _ _ group _
  | .fellBack group .. | .requestFailed group .. => group

/-- How far the call of a get is from its end. -/
def callEffort : Option (Progress LoadFault) → Nat
  | none => 4
  | some (.sleeping ..) => 3
  | some (.queued ..) => 2
  | some (.ready _) => 1

namespace Station

variable {st next : Station} {now : Millis} {node : String} {deed : Deed}

/-- How many transitions a get makes in a row at most. -/
def effort (st : Station) : Nat :=
  match st.stage with
  | .asked => 9
  | .missed => 8
  | .waiting flight =>
      match st.group.flights.status flight with
      | .lost => 8
      | .aloft | .landed _ => 2
  | .leading _ .recheck => 7
  | .leading _ .loading => 2 + callEffort st.call
  | .leading _ (.fetching _) | .leading _ (.done _) => 2
  | .answered _ => 1

/-- What a transition of a get is, or that it is given up. -/
inductive Turns (st : Station) (now : Millis) (node : String) : Deed → Prop where
  | heeded :
      (st.cancelled && st.hearsToken && st.stage.awaits) = true →
      Turns st now node (st.giveUp (.onward (.answered (.error .cancelled))))
  | moved (deed : Deed) : st.Moves now node deed → Turns st now node deed
  | answered (flight : Nat) (answer : LoadAnswer) (outcome : Outcome) (group : Group)
      (events : List Event) :
      st.stage = .leading flight .loading →
      st.group.takeLoaded st.key now answer = (outcome, group) →
      (events = [] ∨ ∃ reason, events = [.loadFailed st.group.name st.key reason]) →
      Turns st now node
        { group, source := st.source, call := none, events
          fate := .onward (.leading flight (.done outcome)) }
  | called (flight : Nat) (call : Progress LoadFault) (source : Source) :
      st.stage = .leading flight .loading → callEffort (some call) < callEffort st.call →
      Turns st now node (st.calling call source)
  | expired (deadline : Millis) :
      st.deadline = some deadline → deadline ≤ now →
      Turns st now node (st.giveUp (.ended (.error .cancelled)))
  | dropped : Turns st now node (st.giveUp .dropped)

theorem answer?_turns {answer : LoadAnswer} (h : st.answer? now answer = some deed) :
    st.Turns now node deed := by
  unfold answer? at h
  split at h
  · next flight hstage =>
    obtain rfl := Option.some.inj h
    refine .answered flight answer _ _ _ hstage rfl ?_
    split
    · exact .inr ⟨_, rfl⟩
    · exact .inl rfl
  · cases h

theorem callEffort_delayed (reaction : Reaction LoadFault) :
    callEffort (some reaction.delayed) ≤ 2 := by
  unfold Reaction.delayed
  cases reaction.gate with
  | none => exact Nat.le_succ 1
  | some name => exact Nat.le_refl 2

theorem callEffort_begun (reaction : Reaction LoadFault) (now : Millis) :
    callEffort (some (reaction.begun now)) ≤ 3 := by
  unfold Reaction.begun
  split
  · exact Nat.le_succ_of_le (callEffort_delayed reaction)
  · exact Nat.le_refl 3

theorem call?_turns (hfits : Fits st.call st.stage)
    (h : st.call? now = some deed) : st.Turns now node deed := by
  unfold call? at h
  split at h
  · next hnone =>
    split at h
    · exact answer?_turns h
    · next flight script hstage _ =>
      obtain rfl := Option.some.inj h
      refine .called flight _ _ hstage ?_
      have hle := callEffort_begun (script.reaction st.key) now
      rw [hnone]
      exact Nat.lt_succ_of_le hle
    · cases h
  · next wake reaction hsleeping =>
    split at h
    · obtain rfl := Option.some.inj h
      obtain ⟨flight, hstage⟩ := hfits.calling (by rw [hsleeping]; rfl)
      refine .called flight _ _ hstage ?_
      rw [hsleeping]
      exact Nat.lt_succ_of_le (callEffort_delayed reaction)
    · cases h
  · cases h
  · exact answer?_turns h

theorem step?_turns (hfits : Fits st.call st.stage)
    (h : st.step? now node = some deed) : st.Turns now node deed := by
  simp only [step?, Option.orElse_eq_orElse, Option.orElse_eq_or, Option.or_eq_some_iff] at h
  rcases h with hheed | ⟨-, hmove | ⟨-, hcall | ⟨-, hexpire⟩⟩⟩
  · unfold heed? at hheed
    split at hheed
    · next hheeds =>
      obtain rfl := Option.some.inj hheed
      exact .heeded hheeds
    · cases hheed
  · exact .moved deed (move?_moves hmove)
  · exact call?_turns hfits hcall
  · unfold expire? at hexpire
    split at hexpire
    · cases hexpire
    · next deadline hdeadline =>
      split at hexpire
      · next hdue =>
        obtain rfl := Option.some.inj hexpire
        exact .expired deadline hdeadline hdue
      · cases hexpire

/-- A flight that is on record is aloft. -/
def Recorded (group : Group) : Prop :=
  ∀ key flight, (key, flight) ∈ group.flights.records →
    group.flights.flights[flight]? = some .aloft

theorem one_le_callEffort (call : Option (Progress LoadFault)) : 1 ≤ callEffort call := by
  unfold callEffort
  split <;> decide

theorem callEffort_le (call : Option (Progress LoadFault)) : callEffort call ≤ 4 := by
  unfold callEffort
  split <;> decide

theorem effort_le (st : Station) : st.effort ≤ 9 := by
  have hcall := callEffort_le st.call
  unfold effort
  split
  · decide
  · decide
  · split <;> decide
  · decide
  · omega
  · decide
  · decide
  · decide

/-- A get that may notice its token does not rest in its next transition. -/
theorem two_le_effort (h : st.stage.awaits = true) : 2 ≤ st.effort := by
  have hcall := one_le_callEffort st.call
  unfold FrameStage.awaits at h
  unfold effort
  split <;> simp_all
  split <;> decide

/-- A get that asks the flight table waits on the flight on record, or leads a new one. -/
theorem enter_cases (st : Station) :
    (∃ flight, (st.key, flight) ∈ st.group.flights.records ∧
      st.enter = st.onward
        { st.group with
          flights := { st.group.flights with waits := st.group.flights.waits + 1 } } []
        (.waiting flight)) ∨
    ∃ flights, flights.flights = st.group.flights.flights.push .aloft ∧
      st.enter = st.onward { st.group with flights } []
        (.leading st.group.flights.flights.size .recheck) := by
  rcases st.group.flights.enter_cases st.key with ⟨flight, hmem, henter⟩ | ⟨-, henter⟩
  · exact .inl ⟨flight, hmem, by simp only [enter, henter]⟩
  · exact .inr ⟨(st.group.flights.enter st.key).2, by rw [henter], by simp only [enter, henter]⟩

/-- Every transition brings a get nearer to its rest. -/
theorem Turns.effort_lt (h : st.Turns now node deed) (hrecorded : Recorded st.group)
    (hfits : Fits st.call st.stage)
    (hnext : st.next? deed = some next) : next.effort < st.effort := by
  cases h with
  | heeded hheeds =>
      obtain rfl := Option.some.inj hnext
      simp only [Bool.and_eq_true] at hheeds
      exact Nat.lt_of_succ_le (two_le_effort hheeds.2)
  | moved _ hmoves =>
      obtain ⟨hsource, hcall, hloading⟩ := hmoves.kept
      have hnone := hfits.call_eq_none hloading
      cases hmoves with
      | answered outcome after events hstage | missed after hstage | took flight outcome hstage
      | found flight value hstage | landed flight outcome hstage =>
          obtain rfl := Option.some.inj hnext
          simp [effort, *]
      | loads flight hstage =>
          obtain rfl := Option.some.inj hnext
          simp [effort, onward, hstage, hnone, callEffort]
      | entered hstage =>
          have height : st.effort = 8 := by
            rcases hstage with hstage | ⟨flight, hstage, hlost⟩
            · simp [effort, hstage]
            · simp [effort, hstage, hlost]
          rw [height]
          rcases st.enter_cases with ⟨flight, hmem, henter⟩ | ⟨flights, -, henter⟩
          · have haloft : st.group.flights.status flight = .aloft :=
              FlightTable.status_eq_aloft.2 (hrecorded st.key flight hmem)
            rw [henter] at hnext
            obtain rfl := Option.some.inj hnext
            have hstatus : FlightTable.status
                { st.group.flights with waits := st.group.flights.waits + 1 } flight = .aloft :=
              haloft
            simp [effort, onward, hstatus]
          · rw [henter] at hnext
            obtain rfl := Option.some.inj hnext
            simp [effort]
      | finished => cases hnext
  | answered flight answer outcome group events hstage =>
      obtain rfl := Option.some.inj hnext
      have hone := one_le_callEffort st.call
      simp only [effort, hstage]
      omega
  | called flight call source hstage hless =>
      obtain rfl := Option.some.inj hnext
      simpa [effort, hstage, calling] using hless
  | expired | dropped => cases hnext

/-- Flights that are aloft in a group are so in another one. -/
def StaysAloft (group after : Group) : Prop :=
  ∀ flight, group.flights.status flight = .aloft → after.flights.status flight = .aloft

theorem StaysAloft.of_eq {group after : Group} (h : after.flights = group.flights) :
    StaysAloft group after := fun _ haloft ↦ h ▸ haloft

/-- A transition that takes a flight down brings the get to its outcome. -/
theorem Turns.quiet (h : st.Turns now node deed) :
    (∀ stage, deed.fate ≠ .onward stage) ∨
      (∃ outcome, deed.fate = .onward (.answered outcome)) ∨
        StaysAloft st.group deed.group := by
  cases h with
  | heeded => exact .inr (.inl ⟨_, rfl⟩)
  | moved _ hmoves =>
      cases hmoves with
      | answered | took | landed => exact .inr (.inl ⟨_, rfl⟩)
      | missed after hstage hconsult =>
          have hkept := st.group.consult_kept st.key now (st.hearsToken && st.cancelled)
          rw [hconsult] at hkept
          exact .inr (.inr (.of_eq hkept.flights))
      | entered hstage =>
          rcases st.enter_cases with ⟨flight, -, henter⟩ | ⟨flights, hflights, henter⟩
          · rw [henter]
            exact .inr (.inr fun _ haloft ↦ haloft)
          · rw [henter]
            refine .inr (.inr fun flight haloft ↦ ?_)
            rw [FlightTable.status_eq_aloft] at haloft ⊢
            replace haloft : st.group.flights.flights[flight]? = some .aloft := haloft
            show flights.flights[flight]? = some .aloft
            rw [hflights, Array.getElem?_push]
            split
            · rfl
            · exact haloft
      | found | loads => exact .inr (.inr fun _ haloft ↦ haloft)
      | finished => exact .inl fun _ ↦ nofun
  | answered flight answer outcome group events hstage htaken =>
      have hkept := st.group.takeLoaded_kept st.key now answer
      rw [htaken] at hkept
      exact .inr (.inr (.of_eq hkept.flights))
  | called => exact .inr (.inr fun _ haloft ↦ haloft)
  | expired | dropped => exact .inl fun _ ↦ nofun

/-- A get that has its outcome does not go on. -/
theorem Turns.of_answered (h : st.Turns now node deed) {outcome : Outcome}
    (hstage : st.stage = .answered outcome) (stage : FrameStage) : deed.fate ≠ .onward stage := by
  cases h with
  | heeded hheeds => simp [hstage, FrameStage.awaits] at hheeds
  | moved _ hmoves =>
      cases hmoves with
      | answered _ _ _ hother | missed _ hother | took _ _ hother | found _ _ hother
      | loads _ hother | landed _ _ hother => cases hstage.symm.trans hother
      | entered hother =>
          rcases hother with hother | ⟨_, hother, -⟩ <;> cases hstage.symm.trans hother
      | finished => exact nofun
  | answered _ _ _ _ _ hother | called _ _ _ hother => cases hstage.symm.trans hother
  | expired | dropped => exact nofun

/-- What a get at rest waits for: a flight that is aloft, or a loader. -/
inductive Waits (st : Station) (now : Millis) : Prop where
  | flight (flight : Nat) :
      st.stage = .waiting flight → st.group.flights.status flight = .aloft → Waits st now
  | asleep (flight : Nat) (wake : Millis) (reaction : Reaction LoadFault) :
      st.stage = .leading flight .loading → st.call = some (.sleeping wake reaction) → now < wake →
      Waits st now
  | queued (flight : Nat) (name : String) (reaction : Reaction LoadFault) :
      st.stage = .leading flight .loading → st.call = some (.queued name reaction) → Waits st now

/-- A get at rest neither heeds its token nor runs out of time, and waits. -/
structure Rests (st : Station) (now : Millis) : Prop where
  heedless : (st.cancelled && st.hearsToken && st.stage.awaits) = false
  early : ∀ deadline, st.deadline = some deadline → now < deadline
  waits : st.Waits now

/-- A get at rest stays there while the flights of its group that are aloft stay so. -/
theorem Rests.mono (h : st.Rests now) {after : Group} (source : Source)
    (haloft : StaysAloft st.group after) :
    ({ st with group := after, source } : Station).Rests now :=
  ⟨h.heedless, h.early, by
    cases h.waits with
    | flight flight hstage hstatus => exact .flight flight hstage (haloft flight hstatus)
    | asleep flight wake reaction hstage hcall hlt =>
        exact .asleep flight wake reaction hstage hcall hlt
    | queued flight name reaction hstage hcall =>
        exact .queued flight name reaction hstage hcall⟩

/-- A get that loads and has no transition waits for its call. -/
theorem waits_of_call? {flight : Nat} (hstage : st.stage = .leading flight .loading)
    (h : st.call? now = none) : st.Waits now := by
  have hanswers : ∀ answer, st.answer? now answer ≠ none := by
    intro answer
    simp [answer?, hstage]
  unfold call? at h
  cases hcall : st.call with
  | none =>
      cases hsource : st.source with
      | files loader =>
          simp only [hcall, hstage, hsource] at h
          exact absurd h (hanswers _)
      | script script => simp [hcall, hstage, hsource] at h
  | some call =>
      cases call with
      | sleeping wake reaction =>
          refine .asleep flight wake reaction hstage hcall (Nat.lt_of_not_le fun hdue ↦ ?_)
          simp [hcall, hdue] at h
      | queued name reaction => exact .queued flight name reaction hstage hcall
      | ready reaction =>
          simp only [hcall] at h
          exact absurd h (hanswers _)

/-- A get has no transition if and only if it is at rest. -/
theorem step?_eq_none (hfits : Fits st.call st.stage) :
    st.step? now node = none ↔ st.Rests now := by
  have hparts : st.step? now node = none ↔ st.heed? = none ∧ st.move? now node = none ∧
      st.call? now = none ∧ st.expire? now = none := by
    simp [step?, Option.orElse_eq_orElse, Option.orElse_eq_or]
  have hheed : st.heed? = none ↔ (st.cancelled && st.hearsToken && st.stage.awaits) = false := by
    unfold heed?
    split <;> simp_all
  have hexpire : st.expire? now = none ↔
      ∀ deadline, st.deadline = some deadline → now < deadline := by
    unfold expire?
    cases st.deadline with
    | none => simp
    | some deadline => simp
  rw [hparts, hheed, hexpire]
  constructor
  · rintro ⟨hheedless, hmove, hcall, hearly⟩
    refine ⟨hheedless, hearly, ?_⟩
    unfold move? at hmove
    cases hstage : st.stage with
    | leading flight errand =>
        cases errand with
        | loading => exact waits_of_call? hstage hcall
        | fetching peer => exact absurd hstage (hfits.here flight peer)
        | recheck =>
            simp only [hstage] at hmove
            split at hmove <;> cases hmove
        | done => simp [hstage] at hmove
    | waiting flight =>
        simp only [hstage] at hmove
        split at hmove
        · cases hmove
        · cases hmove
        · next hstatus => exact .flight flight hstage hstatus
    | asked =>
        simp only [hstage] at hmove
        split at hmove <;> cases hmove
    | missed | answered => simp [hstage] at hmove
  · rintro ⟨hheedless, hearly, hwaits⟩
    refine ⟨hheedless, ?_, ?_, hearly⟩
    · unfold move?
      cases hwaits with
      | flight flight hstage hstatus => simp [hstage, hstatus]
      | asleep flight wake reaction hstage | queued flight name reaction hstage => simp [hstage]
    · unfold call?
      cases hwaits with
      | flight flight hstage hstatus =>
          have hnone := hfits.call_eq_none (by simp [hstage])
          simp [hnone, hstage]
      | asleep flight wake reaction hstage hcall hlt => simp [hcall, Nat.not_le.2 hlt]
      | queued flight name reaction hstage hcall => simp [hcall]

/-- A get that goes on has a call only while it waits for a loader, and fetches nothing. -/
theorem Turns.fits (h : st.Turns now node deed) (hfits : Fits st.call st.stage)
    (hnext : st.next? deed = some next) : Fits next.call next.stage := by
  have huncalled : ∀ {stage : FrameStage},
      (∀ flight peer, stage ≠ .leading flight (.fetching peer)) → Fits none stage :=
    fun hhere ↦ ⟨fun hsome ↦ absurd hsome Bool.false_ne_true, hhere⟩
  cases h with
  | heeded | answered =>
      obtain rfl := Option.some.inj hnext
      exact huncalled fun _ _ ↦ nofun
  | moved _ hmoves =>
      obtain ⟨-, hcall, hloading⟩ := hmoves.kept
      have hnone : next.call = none := by
        unfold next? at hnext
        split at hnext
        · obtain rfl := Option.some.inj hnext
          exact hcall.trans (hfits.call_eq_none hloading)
        · cases hnext
        · cases hnext
      rw [hnone]
      refine huncalled ?_
      cases hmoves with
      | answered | missed | took | found | loads | landed =>
          obtain rfl := Option.some.inj hnext
          exact fun _ _ ↦ nofun
      | entered =>
          rcases st.enter_cases with ⟨_, -, henter⟩ | ⟨_, -, henter⟩
          all_goals
            rw [henter] at hnext
            obtain rfl := Option.some.inj hnext
            exact fun _ _ ↦ nofun
      | finished => cases hnext
  | called flight call source hstage =>
      obtain rfl := Option.some.inj hnext
      exact ⟨fun _ ↦ ⟨flight, hstage⟩, hfits.here⟩
  | expired | dropped => cases hnext

/-- What a transition of a get does to its group and records is about the group. -/
theorem Turns.own (h : st.Turns now node deed) :
    deed.group.name = st.group.name ∧ deed.group.settings = st.group.settings ∧
      ∀ event ∈ deed.events, event.group = st.group.name := by
  have hleft : st.left.name = st.group.name ∧ st.left.settings = st.group.settings := by
    unfold left
    split <;> exact ⟨rfl, rfl⟩
  cases h with
  | heeded | expired | dropped => exact ⟨hleft.1, hleft.2, nofun⟩
  | moved _ hmoves =>
      cases hmoves with
      | answered outcome after events hstage hconsult hevents =>
          have hkept := st.group.consult_kept st.key now (st.hearsToken && st.cancelled)
          rw [hconsult] at hkept
          refine ⟨hkept.name, hkept.settings, ?_⟩
          rcases hevents with rfl | ⟨tier, rfl⟩
          · exact nofun
          · exact List.forall_mem_singleton.2 rfl
      | missed after hstage hconsult =>
          have hkept := st.group.consult_kept st.key now (st.hearsToken && st.cancelled)
          rw [hconsult] at hkept
          exact ⟨hkept.name, hkept.settings, nofun⟩
      | entered | took | found | landed | finished => exact ⟨rfl, rfl, nofun⟩
      | loads => exact ⟨rfl, rfl, List.forall_mem_singleton.2 rfl⟩
  | answered flight answer outcome group events hstage htaken hevents =>
      have hkept := st.group.takeLoaded_kept st.key now answer
      rw [htaken] at hkept
      refine ⟨hkept.name, hkept.settings, ?_⟩
      rcases hevents with rfl | ⟨reason, rfl⟩
      · exact nofun
      · exact List.forall_mem_singleton.2 rfl
  | called => exact ⟨rfl, rfl, nofun⟩

end Station

end ReadThrough
