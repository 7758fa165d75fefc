import ReadThrough.Proofs.Group.Contents

/-!
# What a group makes of replies

A leader makes at most two calls, one of a peer and one of its loader, and each of them comes to a
`Reply`. What a reply ends the work with or makes the leader do next is `takeFetched_ends` and
`takeLoaded_outcome`. What it leaves in the tiers is `Tiered.offered`: a value of the loader is for
the main tier, and one of a peer for the hot tier if it is admitted. The gate of a group admits the
values of peers by their number alone (`AdmissionGate.Counts`).
-/

namespace ReadThrough

/-- What the call of a leader comes to: the answer of a peer, or that of the loader. -/
inductive Reply where
  | fetched (answer : Outcome)
  | loaded (answer : LoadAnswer)

/-- What the work for a key ends with if a reply ends it. An absence is one of that key. -/
def Reply.outcome (key : String) : Reply → Outcome
  | .fetched (.ok value) => .ok value
  | .fetched (.error fault) => .error (if fault.isNotFound then .notFound key else fault)
  | .loaded answer => LoadAnswer.outcome key answer

/-- Whether a value is let through by a rule after a number of others. -/
def Admission.admits (rule : Admission) (count : Nat) : Bool :=
  match rule with
  | .always => true
  | .never => false
  | .oneIn n => decide (n ≤ 1 ∨ n ∣ count)

/-- What a leader that goes on with a reply, or with none, leaves in the tiers. -/
def Tiered.offered (cache : Tiered) (key : String) (admitted : Bool) : Option Reply → Tiered
  | some (.loaded (.ok value)) => (cache.add key value .main).cache
  | some (.fetched (.ok value)) => if admitted then (cache.add key value .hot).cache else cache
  | _ => cache

/-- A fetch came to a fault of the peer's own, and the loader is to be called instead. -/
def GroupSettings.FallsBack (settings : GroupSettings) (answer : Outcome) : Prop :=
  ∃ fault, answer = .error fault ∧ fault.isNotFound = false ∧ fault ≠ .cancelled ∧
    settings.fallbackToLocal = true

/-! ## Gates -/

namespace AdmissionGate

/-- A gate with a rule has counted a number of values, if it counts at all. -/
structure Counts (gate : AdmissionGate) (rule : Admission) (count : Nat) : Prop where
  follows : gate.rule = rule
  seen : ∀ n, rule = .oneIn n → 1 < n → gate.seen = count

variable {gate : AdmissionGate} {rule : Admission} {count : Nat}

theorem counts_ofRule (rule : Admission) : (ofRule rule).Counts rule 0 :=
  ⟨rfl, fun _ _ _ ↦ rfl⟩

/-- The next value is let through by its number. -/
theorem Counts.admits (h : gate.Counts rule count) : gate.decideNext.1 = rule.admits count := by
  obtain ⟨hfollows, hseen⟩ := h
  unfold decideNext
  rw [hfollows]
  cases rule with
  | always | never => rfl
  | oneIn n =>
      dsimp only [Admission.admits]
      split
      · next hle => exact (decide_eq_true (.inl hle)).symm
      · next hlt =>
        rw [hseen n rfl (Nat.not_le.1 hlt)]
        simp only [hlt, false_or, Nat.dvd_iff_mod_eq_zero]

example : (List.range 7).map (Admission.oneIn 3).admits =
    [true, false, false, true, false, false, true] := by decide

/-- The next value is counted. -/
theorem Counts.next (h : gate.Counts rule count) : gate.decideNext.2.Counts rule (count + 1) := by
  obtain ⟨hfollows, hseen⟩ := h
  unfold decideNext
  rw [hfollows]
  cases rule with
  | always | never => exact ⟨hfollows, fun _ heq ↦ nomatch heq⟩
  | oneIn n =>
      dsimp only
      split
      · next hle =>
        refine ⟨hfollows, ?_⟩
        rintro _ ⟨⟩ hlt
        exact absurd hle (Nat.not_le.2 hlt)
      · exact ⟨rfl, fun other heq hlt ↦ congrArg (· + 1) (hseen other heq hlt)⟩

end AdmissionGate

/-! ## Replies that a group takes in -/

namespace Group

variable (group : Group) (key : String) (now : Millis)

theorem rememberAbsent_cache : (group.rememberAbsent key now).cache = group.cache := by
  unfold rememberAbsent
  split <;> rfl

theorem rememberAbsent_gate : (group.rememberAbsent key now).gate = group.gate := by
  unfold rememberAbsent
  split <;> rfl

/-- The answer of the loader leaves in the tiers what is offered to them. -/
theorem takeLoaded_cache (answer : LoadAnswer) (admitted : Bool) :
    (group.takeLoaded key now answer).2.cache =
      group.cache.offered key admitted (some (.loaded answer)) := by
  rcases answer with (_ | reason) | value
  · exact rememberAbsent_cache (group.count _) key now
  · rfl
  · rfl

theorem takeLoaded_gate (answer : LoadAnswer) :
    (group.takeLoaded key now answer).2.gate = group.gate := by
  rcases answer with (_ | reason) | value
  · exact rememberAbsent_gate (group.count _) key now
  · rfl
  · rfl

/-- The answer of a peer leaves in the tiers what is offered to them, and the gate of the group
decides on a value. -/
theorem takeFetched_offers (answer : Outcome) :
    (group.takeFetched key now answer).2.cache =
        group.cache.offered key group.gate.decideNext.1 (some (.fetched answer)) ∧
      (group.takeFetched key now answer).2.gate =
        if answer.isOk then group.gate.decideNext.2 else group.gate := by
  cases answer with
  | ok value =>
      unfold takeFetched Tiered.offered
      dsimp only [count]
      split <;> exact ⟨rfl, rfl⟩
  | error fault =>
      by_cases hown : fault.isNotFound = false ∧ fault ≠ .cancelled
      · rw [group.takeFetched_own key now hown.1 hown.2]
        dsimp only
        split <;> exact ⟨rfl, rfl⟩
      · cases fault with
        | notFound absent =>
            exact ⟨group.rememberAbsent_cache key now, group.rememberAbsent_gate key now⟩
        | cancelled => exact ⟨rfl, rfl⟩
        | _ => exact absurd ⟨rfl, by simp⟩ hown

/-- The answer of a peer makes a leader load the value instead, or it ends its work. -/
theorem takeFetched_ends (answer : Outcome) :
    group.settings.FallsBack answer ∧
        (∃ fault, (group.takeFetched key now answer).1 = .fallBack fault) ∨
      ¬group.settings.FallsBack answer ∧
        (group.takeFetched key now answer).1 = .done ((Reply.fetched answer).outcome key) := by
  cases answer with
  | ok value => exact .inr ⟨fun ⟨_, heq, _⟩ ↦ (nomatch heq), rfl⟩
  | error fault =>
      by_cases hown : fault.isNotFound = false ∧ fault ≠ .cancelled
      · rw [group.takeFetched_own key now hown.1 hown.2]
        dsimp only
        split
        · next hfallback => exact .inl ⟨⟨fault, rfl, hown.1, hown.2, hfallback⟩, fault, rfl⟩
        · next hstrict =>
          refine .inr ⟨fun ⟨_, _, _, _, hfallback⟩ ↦ hstrict hfallback, ?_⟩
          simp [Reply.outcome, hown.1]
      · refine .inr ⟨?_, ?_⟩
        · rintro ⟨other, heq, hfound, hcancelled, -⟩
          cases heq
          exact hown ⟨hfound, hcancelled⟩
        · cases fault with
          | notFound absent => rfl
          | cancelled => rfl
          | _ => exact absurd ⟨rfl, by simp⟩ hown

/-- What follows from the answer of a peer is a matter of the settings of a group. -/
theorem takeFetched_congr {group after : Group} (h : after.settings = group.settings)
    (answer : Outcome) :
    (after.takeFetched key now answer).1 = (group.takeFetched key now answer).1 := by
  rcases after.takeFetched_ends key now answer with ⟨hfalls, fault, hback⟩ | ⟨hstays, hdone⟩
  · obtain ⟨heq, -⟩ := fallBack_of_takeFetched hback
    rcases group.takeFetched_ends key now answer with ⟨-, other, hother⟩ | ⟨hstays, -⟩
    · obtain ⟨heq', -⟩ := fallBack_of_takeFetched hother
      cases heq.symm.trans heq'
      rw [hback, hother]
    · exact absurd (h ▸ hfalls) hstays
  · rcases group.takeFetched_ends key now answer with ⟨hfalls, -⟩ | ⟨-, hother⟩
    · exact absurd (h ▸ hfalls) hstays
    · rw [hdone, hother]

end Group

end ReadThrough
