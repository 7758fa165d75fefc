import ReadThrough.Group.Basic
import ReadThrough.Proofs.Cache.Tiered
import ReadThrough.Proofs.Flight.Table

/-!
# What a group may answer

A verdict says which outcomes may come out for which key of which group. A group agrees with a
verdict if whatever it holds would be let through: the values in its tiers, the absences it
remembers, and the outcomes of its flights. Every part of a get keeps a group in agreement, as long
as the loaders and the peers answer within the verdict.
-/

namespace ReadThrough

/-- Which outcomes may come out for a group name and a key. -/
abbrev Verdict := (name key : String) → Outcome → Prop

/-- A verdict that lets a get be cancelled and an absence be told of the key that was asked for. -/
structure Verdict.Lenient (P : Verdict) : Prop where
  cancelled : ∀ name key, P name key (.error .cancelled)
  restated : ∀ name key other, P name key (.error (.notFound other)) →
    P name key (.error (.notFound key))

/-- The outcome that a loader's answer stands for. -/
def LoadAnswer.outcome (key : String) : LoadAnswer → Outcome
  | .ok value => .ok value
  | .error .notFound => .error (.notFound key)
  | .error (.failed reason) => .error (.loaderFailure key reason)

/-- An answer of a peer that is within the verdict, or that a group need not believe. -/
def Verdict.Credible (P : Verdict) (name key : String) (answer : Outcome) : Prop :=
  P name key answer ∨ ∃ fault, answer = .error fault ∧ fault.isNotFound = false ∧
    fault ≠ .cancelled

namespace Group

/-- A group that differs from another one at most in what it holds and counts. -/
structure Kept (after group : Group) : Prop where
  name : after.name = group.name
  settings : after.settings = group.settings
  flights : after.flights = group.flights

theorem Kept.refl (group : Group) : Kept group group :=
  ⟨rfl, rfl, rfl⟩

theorem Kept.trans {first second third : Group} (h : Kept first second)
    (h' : Kept second third) : Kept first third :=
  ⟨h.name.trans h'.name, h.settings.trans h'.settings, h.flights.trans h'.flights⟩

theorem count_kept (group : Group) (change : GroupCounts → GroupCounts) :
    Kept (group.count change) group :=
  ⟨rfl, rfl, rfl⟩

/-- A group that holds nothing that the verdict does not let through. The key of each flight is
given by its number. -/
structure Agrees (P : Verdict) (keys : Nat → String) (group : Group) : Prop where
  shielded : group.settings.fallbackToLocal = true ∨
    ∀ key fault, P group.name key (.error fault)
  held : ∀ key value, group.cache.Holds key value → P group.name key (.ok value)
  absent : ∀ absences, group.absences = some absences → ∀ entry ∈ absences.entries,
    P group.name entry.key (.error (.notFound entry.key))
  records : ∀ key flight, (key, flight) ∈ group.flights.records →
    group.flights.flights[flight]? = some .aloft ∧ keys flight = key
  landed : ∀ (flight : Nat) (outcome : Outcome),
    group.flights.flights[flight]? = some (.landed outcome) → P group.name (keys flight) outcome

variable {P Q : Verdict} {keys : Nat → String} {group after : Group}

/-- A group that agrees with a verdict agrees with one that lets more through. -/
theorem Agrees.mono (h : group.Agrees P keys)
    (hmore : ∀ name key outcome, P name key outcome → Q name key outcome) :
    group.Agrees Q keys where
  shielded := h.shielded.imp_right fun hfaults key fault ↦ hmore _ _ _ (hfaults key fault)
  held := fun key value hholds ↦ hmore _ _ _ (h.held key value hholds)
  absent := fun absences hsome entry hmem ↦ hmore _ _ _ (h.absent absences hsome entry hmem)
  records := h.records
  landed := fun flight outcome hlanded ↦ hmore _ _ _ (h.landed flight outcome hlanded)

/-- A group that keeps its flights agrees if what it holds is let through. -/
theorem Agrees.restock (h : group.Agrees P keys) (hkept : Kept after group)
    (hheld : ∀ key value, after.cache.Holds key value → P group.name key (.ok value))
    (habsent : ∀ absences, after.absences = some absences → ∀ entry ∈ absences.entries,
      P group.name entry.key (.error (.notFound entry.key))) : after.Agrees P keys where
  shielded := by
    rw [hkept.settings, hkept.name]
    exact h.shielded
  held := by
    rw [hkept.name]
    exact hheld
  absent := by
    rw [hkept.name]
    exact habsent
  records := by
    rw [hkept.flights]
    exact h.records
  landed := by
    rw [hkept.flights, hkept.name]
    exact h.landed

/-- A group that only counted something agrees. -/
theorem Agrees.count (h : group.Agrees P keys) (change : GroupCounts → GroupCounts) :
    (group.count change).Agrees P keys :=
  h.restock ⟨rfl, rfl, rfl⟩ h.held h.absent

/-! ## Consulting -/

theorem consult_kept (group : Group) (key : String) (now : Millis) (cancelled : Bool) :
    Kept (group.consult key now cancelled).2 group := by
  unfold consult
  dsimp only
  split
  · exact ⟨rfl, rfl, rfl⟩
  · split
    · exact ⟨rfl, rfl, rfl⟩
    · split <;> exact ⟨rfl, rfl, rfl⟩

/-- What a group answers by itself is let through, and consulting keeps it in agreement. -/
theorem Agrees.consult (h : group.Agrees P keys) (hP : P.Lenient) (key : String) (now : Millis)
    (cancelled : Bool) :
    (group.consult key now cancelled).2.Agrees P keys ∧
      ∀ outcome, (group.consult key now cancelled).1 = some outcome →
        P group.name key outcome := by
  have hread : ∀ key' value, (group.cache.get key now).cache.Holds key' value →
      P group.name key' (.ok value) :=
    fun key' value hholds ↦ h.held key' value ((group.cache.get_below key now).holds hholds)
  have hremembered : ∀ absences,
      (group.absences.map fun absences ↦ absences.get key now).map Recency.Step.cache =
        some absences → ∀ entry ∈ absences.entries,
      P group.name entry.key (.error (.notFound entry.key)) := by
    intro absences hsome entry hentry
    rw [Option.map_map] at hsome
    obtain ⟨before, hbefore, rfl⟩ := Option.map_eq_some_iff.1 hsome
    exact h.absent before hbefore entry ((before.get_below key now).entries entry hentry)
  unfold Group.consult
  dsimp only
  split
  · refine ⟨h.restock ⟨rfl, rfl, rfl⟩ h.held h.absent, ?_⟩
    rintro outcome ⟨⟩
    exact hP.cancelled _ _
  · split
    · next value tier hresult =>
      refine ⟨h.restock ⟨rfl, rfl, rfl⟩ hread h.absent, ?_⟩
      rintro outcome ⟨⟩
      exact h.held key value (Tiered.holds_of_get hresult)
    · split
      · next hany =>
        refine ⟨h.restock ⟨rfl, rfl, rfl⟩ hread hremembered, ?_⟩
        rintro outcome ⟨⟩
        obtain ⟨step, hstep, hsome⟩ := (Option.any_eq_true _ _).1 hany
        obtain ⟨absences, habsences, rfl⟩ := Option.map_eq_some_iff.1 hstep
        obtain ⟨value, hvalue⟩ := Option.isSome_iff_exists.1 hsome
        exact h.absent absences habsences _ (Recency.mem_of_get hvalue)
      · exact ⟨h.restock ⟨rfl, rfl, rfl⟩ hread hremembered, fun _ hnone ↦ nomatch hnone⟩

/-! ## Answers from outside -/

theorem rememberAbsent_kept (group : Group) (key : String) (now : Millis) :
    Kept (group.rememberAbsent key now) group := by
  unfold rememberAbsent
  split <;> exact ⟨rfl, rfl, rfl⟩

theorem takeLoaded_kept (group : Group) (key : String) (now : Millis) (answer : LoadAnswer) :
    Kept (group.takeLoaded key now answer).2 group := by
  rcases answer with (_ | reason) | value
  · exact (rememberAbsent_kept (group.count _) key now).trans (count_kept group _)
  · exact ⟨rfl, rfl, rfl⟩
  · exact ⟨rfl, rfl, rfl⟩

theorem takeFetched_kept (group : Group) (key : String) (now : Millis) (answer : Outcome) :
    Kept (group.takeFetched key now answer).2 group := by
  unfold takeFetched
  dsimp only
  split
  · split <;> exact ⟨rfl, rfl, rfl⟩
  · exact rememberAbsent_kept _ key now
  · exact .refl group
  · split <;> exact ⟨rfl, rfl, rfl⟩

/-- A loader's answer is passed on as the outcome that it stands for. -/
theorem takeLoaded_outcome (group : Group) (key : String) (now : Millis) (answer : LoadAnswer) :
    (group.takeLoaded key now answer).1 = LoadAnswer.outcome key answer := by
  unfold takeLoaded LoadAnswer.outcome
  rcases answer with (_ | _) | _ <;> rfl

/-- Remembering an absence that may be told keeps a group in agreement. -/
theorem Agrees.rememberAbsent (h : group.Agrees P keys) {key : String}
    (habsent : P group.name key (.error (.notFound key))) (now : Millis) :
    (group.rememberAbsent key now).Agrees P keys := by
  refine h.restock (group.rememberAbsent_kept key now) ?_ ?_
  · unfold Group.rememberAbsent
    split <;> exact h.held
  · unfold Group.rememberAbsent
    split
    · next absences ttl hsome _ =>
      rintro _ ⟨⟩ entry hentry
      rcases Recency.mem_add hentry with ⟨hold, -⟩ | rfl
      · exact h.absent absences hsome entry hold
      · exact habsent
    · exact h.absent

/-- Storing a value that is let through keeps a group in agreement. -/
theorem Agrees.store (h : group.Agrees P keys) {key : String} {value : Value}
    (hvalue : P group.name key (.ok value)) (tier : Tier) (hkept : Kept after group)
    (hcache : after.cache = (group.cache.add key value tier).cache)
    (habsences : after.absences = group.absences) : after.Agrees P keys := by
  refine h.restock hkept ?_ (habsences ▸ h.absent)
  intro other held hholds
  rw [hcache] at hholds
  rcases Tiered.holds_of_add hholds with hold | ⟨rfl, rfl⟩
  · exact h.held other held hold
  · exact hvalue

/-- An answer of a loader that is let through keeps a group in agreement. -/
theorem Agrees.takeLoaded (h : group.Agrees P keys) {key : String} {answer : LoadAnswer}
    (hanswer : P group.name key (LoadAnswer.outcome key answer)) (now : Millis) :
    (group.takeLoaded key now answer).2.Agrees P keys := by
  unfold Group.takeLoaded
  rcases answer with (_ | reason) | value
  · exact (h.count fun c ↦ { c with localLoadErrors := c.localLoadErrors + 1 }).rememberAbsent
      hanswer now
  · exact h.count fun c ↦ { c with localLoadErrors := c.localLoadErrors + 1 }
  · exact h.store hanswer .main ⟨rfl, rfl, rfl⟩ rfl rfl

/-- A fault that is the peer's own makes the get fall back, or is passed on. -/
theorem takeFetched_own (group : Group) (key : String) (now : Millis) {fault : Fault}
    (hfound : fault.isNotFound = false) (hcancelled : fault ≠ .cancelled) :
    group.takeFetched key now (.error fault) =
      let counted := group.count fun c ↦ { c with peerErrors := c.peerErrors + 1 }
      if group.settings.fallbackToLocal then (.fallBack fault, counted)
      else (.done (.error fault), counted) := by
  cases fault with
  | notFound => cases hfound
  | cancelled => exact absurd rfl hcancelled
  | _ => rfl

/-- Falling back is what a fault of the peer's own comes to in a group that is set to do so. -/
theorem fallBack_of_takeFetched {group : Group} {key : String} {now : Millis} {answer : Outcome}
    {fault : Fault} (h : (group.takeFetched key now answer).1 = .fallBack fault) :
    answer = .error fault ∧ group.settings.fallbackToLocal = true ∧ fault.isNotFound = false ∧
      fault ≠ .cancelled := by
  cases answer with
  | ok value => cases h
  | error other =>
      by_cases hown : other.isNotFound = false ∧ other ≠ .cancelled
      · rw [group.takeFetched_own key now hown.1 hown.2] at h
        dsimp only at h
        split at h
        · next hfallback =>
          cases h
          exact ⟨rfl, hfallback, hown⟩
        · cases h
      · cases other with
        | notFound => cases h
        | cancelled => cases h
        | _ => exact absurd ⟨rfl, by simp⟩ hown

/-- A credible answer of a peer keeps a group in agreement, and what it makes of the get at once is
let through. -/
theorem Agrees.takeFetched (h : group.Agrees P keys) (hP : P.Lenient) {key : String}
    {answer : Outcome} (hanswer : P.Credible group.name key answer) (now : Millis) :
    (group.takeFetched key now answer).2.Agrees P keys ∧
      ∀ outcome, (group.takeFetched key now answer).1 = .done outcome →
        P group.name key outcome := by
  cases answer with
  | ok value =>
      have hvalue : P group.name key (.ok value) := by
        rcases hanswer with hanswer | ⟨fault, hfault, -⟩
        · exact hanswer
        · cases hfault
      refine ⟨?_, ?_⟩
      · unfold Group.takeFetched
        dsimp only
        split
        · exact h.store hvalue .hot ⟨rfl, rfl, rfl⟩ rfl rfl
        · exact h.restock ⟨rfl, rfl, rfl⟩ h.held h.absent
      · rintro outcome ⟨⟩
        exact hvalue
  | error fault =>
      by_cases hown : fault.isNotFound = false ∧ fault ≠ .cancelled
      · rw [group.takeFetched_own key now hown.1 hown.2]
        split
        · refine ⟨h.restock ⟨rfl, rfl, rfl⟩ h.held h.absent, ?_⟩
          rintro outcome ⟨⟩
        · next hstrict =>
          refine ⟨h.restock ⟨rfl, rfl, rfl⟩ h.held h.absent, ?_⟩
          rintro outcome ⟨⟩
          exact h.shielded.resolve_left hstrict key fault
      · -- an absence and a cancellation are passed on, so they have to be within the verdict
        have hbelieved : P group.name key (.error fault) := by
          rcases hanswer with hanswer | ⟨_, ⟨⟩, hown'⟩
          · exact hanswer
          · exact absurd hown' hown
        cases fault with
        | notFound other =>
            have hrestated := hP.restated _ _ _ hbelieved
            refine ⟨h.rememberAbsent hrestated now, ?_⟩
            rintro outcome ⟨⟩
            exact hrestated
        | cancelled =>
            refine ⟨h, ?_⟩
            rintro outcome ⟨⟩
            exact hbelieved
        | _ => exact absurd ⟨rfl, by simp⟩ hown

/-! ## Operations without a fill -/

theorem remove_kept (group : Group) (key : String) : Kept (group.remove key).2 group :=
  ⟨rfl, rfl, rfl⟩

/-- Removing a key keeps a group in agreement. -/
theorem Agrees.remove (h : group.Agrees P keys) (key : String) :
    (group.remove key).2.Agrees P keys := by
  refine h.restock (group.remove_kept key) ?_ ?_
  · intro other value hholds
    exact h.held other value ((group.cache.remove_below key).holds hholds)
  · intro absences hsome entry hentry
    obtain ⟨before, hbefore, rfl⟩ := Option.map_eq_some_iff.1 hsome
    exact h.absent before hbefore entry ((before.remove_below key).entries entry hentry)

/-- Forgetting every entry keeps a group in agreement. -/
theorem Agrees.clear (h : group.Agrees P keys) : group.clear.Agrees P keys := by
  refine h.restock ⟨rfl, rfl, rfl⟩ ?_ h.absent
  intro other value hholds
  exact h.held other value (group.cache.clear_below.holds hholds)

/-- A new group agrees if failures of its peers may be told or are made up for. -/
theorem agrees_create (name : String) (settings : GroupSettings)
    (hshielded : settings.fallbackToLocal = true ∨ ∀ key fault, P name key (.error fault)) :
    (create name settings).Agrees P keys where
  shielded := hshielded
  held := fun key value hholds ↦ absurd hholds (Tiered.not_holds_empty _ key value)
  absent := by
    intro absences hsome entry hentry
    obtain ⟨ttl, -, rfl⟩ := Option.map_eq_some_iff.1 hsome
    cases hentry
  records := fun _ _ hmem ↦ nomatch hmem
  landed := by simp [create, FlightTable.empty]

/-! ## Flights -/

/-- A call that joins a flight keeps a group in agreement. -/
theorem Agrees.join (h : group.Agrees P keys) :
    { group with flights := { group.flights with waits := group.flights.waits + 1 } }.Agrees P
      keys :=
  ⟨h.shielded, h.held, h.absent, h.records, h.landed⟩

/-- A flight that begins keeps a group in agreement, if its number is given its key. -/
theorem Agrees.lead (h : group.Agrees P keys) {keys' : Nat → String} {key : String}
    (hkey : keys' group.flights.flights.size = key)
    (hkeys : ∀ flight < group.flights.flights.size, keys' flight = keys flight) :
    { group with
      flights :=
        { group.flights with
          records := group.flights.records ++ [(key, group.flights.flights.size)]
          flights := group.flights.flights.push .aloft
          executions := group.flights.executions + 1 } }.Agrees P keys' where
  shielded := h.shielded
  held := h.held
  absent := h.absent
  records := by
    intro other flight hmem
    rcases List.mem_append.1 hmem with hold | hnew
    · obtain ⟨haloft, hother⟩ := h.records other flight hold
      have hlt := (Array.getElem?_eq_some_iff.1 haloft).1
      refine ⟨?_, (hkeys flight hlt).trans hother⟩
      rw [Array.getElem?_push, if_neg (Nat.ne_of_lt hlt)]
      exact haloft
    · simp only [List.mem_singleton, Prod.mk.injEq] at hnew
      obtain ⟨rfl, rfl⟩ := hnew
      exact ⟨Array.getElem?_push_size, hkey⟩
  landed := by
    intro flight outcome hflight
    rw [Array.getElem?_push] at hflight
    split at hflight
    · cases hflight
    · rw [hkeys flight (Array.getElem?_eq_some_iff.1 hflight).1]
      exact h.landed flight outcome hflight

/-- A flight that is over keeps a group in agreement, if its outcome is let through. -/
theorem Agrees.settle (h : group.Agrees P keys) {key : String} {flight : Nat}
    {status : Flight Outcome} (hkey : keys flight = key)
    (hstatus : ∀ outcome, status = .landed outcome → P group.name key outcome) :
    { group with flights := group.flights.settle key flight status }.Agrees P keys where
  shielded := h.shielded
  held := h.held
  absent := h.absent
  records := by
    intro other number hmem
    obtain ⟨hold, hother⟩ := FlightTable.mem_records_erase.1 hmem
    obtain ⟨haloft, hnumber⟩ := h.records other number hold
    refine ⟨?_, hnumber⟩
    -- the records that are left are of other keys, and so of other flights
    have hne : flight ≠ number := by
      rintro rfl
      exact hother (hnumber.symm.trans hkey)
    exact (Array.getElem?_setIfInBounds_ne hne).trans haloft
  landed := by
    intro number outcome hflight
    replace hflight : (group.flights.flights.setIfInBounds flight status)[number]? =
      some (.landed outcome) := hflight
    rw [Array.getElem?_setIfInBounds] at hflight
    split at hflight
    · next heq =>
      subst heq
      split at hflight
      · rw [hkey]
        exact hstatus outcome (Option.some.inj hflight)
      · cases hflight
    · exact h.landed number outcome hflight

end Group

end ReadThrough
