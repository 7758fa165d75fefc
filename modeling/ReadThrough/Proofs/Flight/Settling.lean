import Mathlib.Data.List.Induction
import Mathlib.Logic.Relation
import ReadThrough.Proofs.Flight.Progress

/-!
# Scripts settle

Settling lets calls go on by themselves, in rounds, and stops after a number of rounds that depends
on the number of calls alone. That is enough (`still_settle`): a round in which no call ends leaves
every call at rest, since nothing happens to a flight that is aloft, and every other round ends a
call. So every script leaves calls that are still.
-/

namespace ReadThrough.Calls

variable {K R : Type}

/-- The number of calls that have neither returned nor been dropped. -/
def pending (state : Calls K R) : Nat :=
  state.calls.toList.countP Call.pending

/-- No call is between taking its record away and telling what became of its flight. -/
def Whole (state : Calls K R) : Prop :=
  ∀ (number : Nat) (call : Call K R) (flight : Nat) (ending : Ending R),
    state.calls[number]? = some call → call.stage ≠ .closing flight ending

/-- A state that differs from another one at most in one call, and where flights that were aloft
still are. -/
structure Undisturbed (state after : Calls K R) (number : Nat) : Prop where
  calls : ∀ other, other ≠ number → after.calls[other]? = state.calls[other]?
  aloft : ∀ flight, state.table.status flight = .aloft → after.table.status flight = .aloft

theorem Undisturbed.refl (state : Calls K R) (number : Nat) : Undisturbed state state number :=
  ⟨fun _ _ ↦ rfl, fun _ h ↦ h⟩

theorem Undisturbed.trans {first second third : Calls K R} {number : Nat}
    (h : Undisturbed first second number) (h' : Undisturbed second third number) :
    Undisturbed first third number :=
  ⟨fun other hne ↦ (h'.calls other hne).trans (h.calls other hne),
    fun flight haloft ↦ h'.aloft flight (h.aloft flight haloft)⟩

section

variable {state after : Calls K R} {number : Nat} {call : Call K R} {stage : CallStage R}

theorem setStage_setStage (first : CallStage R) :
    ((state.setStage number first).setStage number stage).calls =
      (state.setStage number stage).calls := by
  refine Array.ext_getElem? fun other ↦ ?_
  simp only [setStage, Array.getElem?_modify]
  split <;> simp [Option.map_map, Function.comp_def]

theorem whole_setStage (h : Whole state) (hcall : state.calls[number]? = some call)
    (hcalls : after.calls = (state.setStage number stage).calls)
    (hstage : ∀ flight ending, stage ≠ .closing flight ending) : Whole after := by
  intro other found flight ending hfound
  rw [hcalls, getElem?_setStage hcall] at hfound
  split at hfound
  · cases hfound
    exact hstage flight ending
  · exact h other found flight ending hfound

/-- A call that moves from one pending stage to another leaves as many pending. -/
theorem pending_setStage (hcall : state.calls[number]? = some call)
    (hcalls : after.calls = (state.setStage number stage).calls) (hpending : call.pending = true) :
    after.pending + 1 =
      state.pending + if { call with stage }.pending = true then 1 else 0 := by
  obtain ⟨front, back, hbefore, hafter⟩ := split_setStage hcall stage
  rw [← hcalls] at hafter
  simp only [pending, hbefore, hafter, List.countP_append, List.countP_cons, hpending, if_true]
  omega

end

variable [BEq K]

/-- What one move of a call in a script leaves: a call that ended, or one that is still pending and
has less to do, with the other calls and the flights that were aloft as they were. -/
inductive Moved (state after : Calls K R) (number : Nat) (call : Call K R) : Prop where
  | ended (stage : CallStage R) :
      after.calls = (state.setStage number stage).calls →
      { call with stage }.pending = false → Moved state after number call
  | onward (stage : CallStage R) :
      after.calls = (state.setStage number stage).calls →
      { call with stage }.pending = true → (∀ flight ending, stage ≠ .closing flight ending) →
      { call with stage }.effort after.table < call.effort state.table →
      3 ≤ call.effort state.table → Undisturbed state after number →
      Moved state after number call

variable {state following : Calls K R} {number : Nat} {call : Call K R}

/-- A leader that has a reason to take its record away ends in one go. -/
theorem release?_close? (reason : Call K R → Option (Ending R)) {flight : Nat}
    {ending : Ending R} (hcall : state.calls[number]? = some call)
    (hstage : call.stage = .leading flight) (hreason : reason call = some ending) :
    ∃ released after, state.release? number reason = some released ∧
      released.close? number = some after ∧
      after.calls = (state.setStage number (ending.result?.elim .dropped .returned)).calls := by
  have hclosing : ({ state with table := state.table.erase call.key }.setStage number
      (.closing flight ending)).calls[number]? =
        some { call with stage := .closing flight ending } :=
    (getElem?_setStage hcall).trans (if_pos rfl)
  refine ⟨{ state with table := state.table.erase call.key }.setStage number
    (.closing flight ending), ?_⟩
  simp only [release?, close?, hcall, hstage, hreason, hclosing, bind, Option.bind_some]
  cases ending with
  | worked answer => exact ⟨_, trivial, rfl, setStage_setStage _⟩
  | cancelled => exact ⟨_, trivial, rfl, setStage_setStage _⟩
  | dropped => exact ⟨_, trivial, rfl, setStage_setStage _⟩

/-- Progress of a call that neither takes its record away nor tells what became of its flight is a
move of a script. -/
theorem Progress.moved [LawfulBEq K] (hcoherent : Coherent state) {stage : CallStage R}
    (hcall : state.calls[number]? = some call)
    (hcalls : following.calls = (state.setStage number stage).calls)
    (h : Progress state following number call stage)
    (hidle : call.stage = .entering ∨ ∃ flight, call.stage = .waiting flight) :
    Moved state following number call := by
  have hopen : ∀ flight ending, call.stage ≠ .closing flight ending := by
    rintro flight ending hclosing
    rcases hidle with hstage | ⟨flight, hstage⟩ <;> simp [hclosing] at hstage
  have hundisturbed : Undisturbed state following number := by
    refine ⟨fun other hne ↦ ?_, fun flight haloft ↦ ?_⟩
    · rw [hcalls, getElem?_setStage hcall, if_neg hne]
    · rcases h.status hopen flight with hsame | ⟨-, hnew⟩
      · exact hsame.trans haloft
      · exact hnew
  have hless := h.effort_lt hcoherent
  cases h with
  | joined flight hstage | led hstage =>
      exact .onward _ hcalls rfl (by simp) hless (by simp [Call.effort, hstage]) hundisturbed
  | readmitted flight hstage hstatus =>
      exact .onward _ hcalls rfl (by simp) hless
        (by simp [Call.effort, hstage, hstatus, Flight.effort]) hundisturbed
  | took | left => exact .ended _ hcalls rfl
  | released flight _ hstage => rcases hidle with hother | ⟨_, hother⟩ <;> simp [hstage] at hother
  | closed flight ending hstage => exact absurd hstage (hopen flight ending)

theorem move?_of_none (h : state.calls[number]? = none) : state.move? number = none := by
  simp [move?, heed?, step?, abandon?, leave?, enter?, conclude?, attend?, release?, h]

/-- What one move of a pending call in a script is: transitions by which it goes on by itself. -/
structure Moves (state after : Calls K R) (number : Nat) (call : Call K R) : Prop where
  pending : call.pending = true
  steps : Relation.TransGen Advances state after
  moved : Moved state after number call

/-- A call that does not lead moves by one transition. -/
theorem act?_moves [LawfulBEq K] (hcoherent : Coherent state)
    (hcall : state.calls[number]? = some call)
    (hidle : call.stage = .entering ∨ ∃ flight, call.stage = .waiting flight)
    (action : Action K R) (hmover : action.mover? = some number)
    (hact : state.act? action = some following) : Moves state following number call := by
  obtain ⟨found, stage, hfound, hcalls, hprogress⟩ := act?_progress hmover hact
  rw [hcall] at hfound
  cases hfound
  exact ⟨hprogress.pending, .single ⟨action, number, hmover, hact⟩,
    hprogress.moved hcoherent hcall hcalls hidle⟩

/-- A leader moves by two transitions: it takes its record away, and tells what became of its
flight. -/
theorem release?_moves (reason : Call K R → Option (Ending R)) (action : Action K R)
    {flight : Nat} {ending : Ending R} (hcall : state.calls[number]? = some call)
    (hstage : call.stage = .leading flight) (hreason : reason call = some ending)
    (hmover : action.mover? = some number)
    (hact : ∀ released, state.release? number reason = some released →
      state.act? action = some released) :
    ∃ after, (state.release? number reason).bind (·.close? number) = some after ∧
      Moves state after number call := by
  obtain ⟨released, after, hrelease, hclose, hcalls⟩ :=
    release?_close? reason hcall hstage hreason
  refine ⟨after, by rw [hrelease]; exact hclose, ⟨by simp [Call.pending, hstage], ?_,
    .ended _ hcalls (by cases ending <;> rfl)⟩⟩
  exact .tail (.single ⟨action, number, hmover, hact released hrelease⟩)
    ⟨.close number, number, rfl, hclose⟩

/-- A call that enters moves. -/
theorem move?_of_entering [LawfulBEq K] (hcoherent : Coherent state)
    (hcall : state.calls[number]? = some call) (hstage : call.stage = .entering) :
    ∃ after, state.move? number = some after ∧ Moves state after number call := by
  have hmove : state.move? number = state.enter? number := by
    cases henter : state.enter? number <;>
      simp [move?, heed?, step?, abandon?, leave?, conclude?, attend?, release?, hcall, hstage,
        henter]
  obtain ⟨after, henter⟩ : ∃ after, state.enter? number = some after := by
    simp only [enter?, hcall, hstage, bind, Option.bind_some]
    split <;> exact ⟨_, rfl⟩
  exact ⟨after, hmove.trans henter,
    act?_moves hcoherent hcall (.inl hstage) (.enter number) rfl henter⟩

/-- A leader rests until its token fires or its work has an answer. -/
theorem move?_of_leading {flight : Nat} (hcall : state.calls[number]? = some call)
    (hstage : call.stage = .leading flight) :
    call.Rests state.table ∧ state.move? number = none ∨
      ∃ after, state.move? number = some after ∧ Moves state after number call := by
  by_cases hcancelled : call.cancelled = true
  · obtain ⟨after, hended, hmoves⟩ :=
      release?_moves (fun call ↦ if call.cancelled then some .cancelled else none)
        (.abandon number) hcall hstage (if_pos hcancelled) rfl fun _ hrelease ↦ hrelease
    refine .inr ⟨after, ?_, hmoves⟩
    replace hended : (state.abandon? number).bind (·.close? number) = some after := hended
    rw [move?, heed?, hended]
    rfl
  · have hheed : state.heed? number = none := by
      simp [heed?, abandon?, leave?, release?, hcall, hstage, hcancelled]
    have henter : state.enter? number = none := by simp [enter?, hcall, hstage]
    cases hanswer : call.answer with
    | some value =>
        obtain ⟨after, hended, hmoves⟩ :=
          release?_moves (fun call ↦ call.answer.map .worked) (.conclude number) hcall hstage
            (congrArg (Option.map Ending.worked) hanswer) rfl fun _ hrelease ↦ hrelease
        refine .inr ⟨after, ?_, hmoves⟩
        replace hended : (state.conclude? number).bind (·.close? number) = some after := hended
        rw [move?, hheed, step?, henter, hended]
        rfl
    | none =>
        refine .inl ⟨by simpa [Call.Rests, hstage, hanswer] using hcancelled, ?_⟩
        simp [move?, hheed, step?, henter, conclude?, attend?, release?, hcall, hstage, hanswer]

/-- A waiter rests until its token fires or its flight is no longer aloft. -/
theorem move?_of_waiting [LawfulBEq K] (hcoherent : Coherent state) {flight : Nat}
    (hcall : state.calls[number]? = some call) (hstage : call.stage = .waiting flight) :
    call.Rests state.table ∧ state.move? number = none ∨
      ∃ after, state.move? number = some after ∧ Moves state after number call := by
  by_cases hcancelled : call.cancelled = true
  · have hleave : state.leave? number = some (state.finish number .cancelled) := by
      simp [leave?, hcall, hstage, hcancelled]
    refine .inr ⟨_, ?_, act?_moves hcoherent hcall (.inr ⟨flight, hstage⟩)
      (.leave number) rfl hleave⟩
    simp [move?, heed?, abandon?, release?, hcall, hstage, hleave]
  · have hmove : state.move? number = state.attend? number := by
      simp [move?, heed?, step?, abandon?, leave?, enter?, conclude?, release?, hcall, hstage,
        hcancelled]
    by_cases haloft : state.table.status flight = .aloft
    · refine .inl ⟨by simpa [Call.Rests, hstage, haloft] using hcancelled, ?_⟩
      rw [hmove]
      simp [attend?, hcall, hstage, haloft]
    · obtain ⟨after, hattend⟩ : ∃ after, state.attend? number = some after := by
        simp only [attend?, hcall, hstage, bind, Option.bind_some]
        split
        · exact ⟨_, rfl⟩
        · exact ⟨_, rfl⟩
        · next hother => exact absurd hother haloft
      exact .inr ⟨after, hmove.trans hattend, act?_moves hcoherent hcall (.inr ⟨flight, hstage⟩)
        (.attend number) rfl hattend⟩

/-- A call moves if it does not rest. -/
theorem move?_cases [LawfulBEq K] (hcoherent : Coherent state)
    (hcall : state.calls[number]? = some call)
    (hopen : ∀ flight ending, call.stage ≠ .closing flight ending) :
    call.Rests state.table ∧ state.move? number = none ∨
      ∃ after, state.move? number = some after ∧ Moves state after number call := by
  cases hstage : call.stage with
  | closing flight ending => exact absurd hstage (hopen flight ending)
  | returned | dropped =>
      left
      simp [Call.Rests, hstage, move?, heed?, step?, abandon?, leave?, enter?, conclude?, attend?,
        release?, hcall]
  | entering => exact .inr (move?_of_entering hcoherent hcall hstage)
  | leading flight => exact move?_of_leading hcall hstage
  | waiting flight => exact move?_of_waiting hcoherent hcall hstage

/-! ## Rounds -/

theorem Advances.pending_le [LawfulBEq K] (h : state.Advances following) :
    following.pending ≤ state.pending := by
  obtain ⟨number, call, stage, hcall, hcalls, hprogress⟩ := h.progress
  have hpending := pending_setStage hcall hcalls hprogress.pending
  split at hpending <;> omega

/-- What calls that go on by themselves keep. -/
structure Gone (state after : Calls K R) : Prop where
  steps : Relation.ReflTransGen Advances state after
  coherent : Coherent after
  size : after.calls.size = state.calls.size
  pending : after.pending ≤ state.pending

theorem gone [LawfulBEq K] (hcoherent : Coherent state)
    (h : Relation.ReflTransGen Advances state following) : Gone state following := by
  induction h with
  | refl => exact ⟨.refl, hcoherent, rfl, Nat.le_refl _⟩
  | tail hsteps hstep ih =>
      obtain ⟨number, call, stage, hcall, hcalls, hprogress⟩ := hstep.progress
      refine ⟨hsteps.tail hstep, hstep.coherent ih.coherent, ?_,
        Nat.le_trans hstep.pending_le ih.pending⟩
      rw [hcalls, setStage, Array.size_modify, ih.size]

/-- A call has had its turn: a call ended, or it rests and nothing happened to the others. -/
def Turned (state after : Calls K R) (number : Nat) : Prop :=
  after.pending < state.pending ∨
    after.pending = state.pending ∧ Undisturbed state after number ∧
      ∀ call, after.calls[number]? = some call → call.Rests after.table

omit [BEq K] in
/-- A call that ended or moved on leaves no call between taking its record away and telling. -/
theorem Moved.whole (h : Moved state following number call)
    (hcall : state.calls[number]? = some call) (hwhole : Whole state) : Whole following := by
  cases h with
  | ended stage hcalls hended =>
      refine whole_setStage hwhole hcall hcalls ?_
      rintro flight ending rfl
      simp [Call.pending] at hended
  | onward stage hcalls _ hopen => exact whole_setStage hwhole hcall hcalls hopen

/-- A call that is run goes on by itself. -/
theorem runCall_steps [LawfulBEq K] (hcoherent : Coherent state) (hwhole : Whole state)
    (limit number : Nat) :
    Relation.ReflTransGen Advances state (runCall limit state number) ∧
      Whole (runCall limit state number) := by
  induction limit generalizing state with
  | zero => exact ⟨.refl, hwhole⟩
  | succ limit ih =>
      rw [runCall]
      cases hcall : state.calls[number]? with
      | none =>
          rw [move?_of_none hcall]
          exact ⟨.refl, hwhole⟩
      | some call =>
          rcases move?_cases hcoherent hcall (fun _ _ ↦ hwhole _ _ _ _ hcall) with
            ⟨-, hmove⟩ | ⟨after, hmove, hmoves⟩
          · rw [hmove]
            exact ⟨.refl, hwhole⟩
          · rw [hmove]
            have hreached := hmoves.steps.to_reflTransGen
            obtain ⟨hrest, hend⟩ :=
              ih (gone hcoherent hreached).coherent (hmoves.moved.whole hcall hwhole)
            exact ⟨hreached.trans hrest, hend⟩

/-- A call that is run for as many moves as it has effort for has its turn. -/
theorem runCall_turned [LawfulBEq K] (hcoherent : Coherent state) (hwhole : Whole state)
    {limit : Nat} (hlimit : ∀ call, state.calls[number]? = some call →
      call.effort state.table ≤ limit + 1 ∧ 0 < limit) :
    Turned state (runCall limit state number) number := by
  induction limit generalizing state with
  | zero =>
      refine .inr ⟨rfl, .refl _ _, fun call hcall ↦ ?_⟩
      exact absurd (hlimit call hcall).2 (Nat.lt_irrefl 0)
  | succ limit ih =>
      rw [runCall]
      cases hcall : state.calls[number]? with
      | none =>
          rw [move?_of_none hcall]
          exact .inr ⟨rfl, .refl _ _, fun call hfound ↦ by rw [hcall] at hfound; cases hfound⟩
      | some call =>
          rcases move?_cases hcoherent hcall (fun _ _ ↦ hwhole _ _ _ _ hcall) with
            ⟨hrests, hmove⟩ | ⟨after, hmove, hpending, hsteps, hmoved⟩
          · rw [hmove]
            refine .inr ⟨rfl, .refl _ _, fun found hfound ↦ ?_⟩
            rw [hcall] at hfound
            cases hfound
            exact hrests
          · rw [hmove]
            have hafter := (gone hcoherent hsteps.to_reflTransGen).coherent
            have hwhole' := hmoved.whole hcall hwhole
            cases hmoved with
            | ended stage hcalls hended =>
                have hcount := pending_setStage hcall hcalls hpending
                rw [hended, if_neg Bool.false_ne_true] at hcount
                have hrest := (gone hafter (runCall_steps hafter hwhole' limit number).1).pending
                exact .inl (by dsimp only; omega)
            | onward stage hcalls hpending' _ hless heffort hundisturbed =>
                -- the call is still pending, and has less effort left for one move less
                have hcount := pending_setStage hcall hcalls hpending
                rw [if_pos hpending'] at hcount
                have hbound := (hlimit call hcall).1
                have hturned := ih hafter hwhole' fun found hfound ↦ by
                  rw [hcalls, getElem?_setStage hcall, if_pos rfl] at hfound
                  cases hfound
                  omega
                rcases hturned with hfewer | ⟨hsame, hrest, hrests⟩
                · exact .inl (by dsimp only; omega)
                · exact .inr ⟨by dsimp only; omega, hundisturbed.trans hrest, hrests⟩

/-- What the calls before a number are like after their turns in a round. -/
theorem turns [LawfulBEq K] (hcoherent : Coherent state) (hwhole : Whole state) (count : Nat) :
    let after := (List.range count).foldl (runCall 3) state
    Relation.ReflTransGen Advances state after ∧ Whole after ∧
      (after.pending < state.pending ∨
        after.pending = state.pending ∧ ∀ (number : Nat) (call : Call K R), number < count →
          after.calls[number]? = some call → call.Rests after.table) := by
  induction count with
  | zero => exact ⟨.refl, hwhole, .inr ⟨rfl, fun _ _ h ↦ absurd h (Nat.not_lt_zero _)⟩⟩
  | succ count ih =>
      obtain ⟨hsteps, hbefore, hprogress⟩ := ih
      simp only [List.range_succ, List.foldl_append, List.foldl_cons, List.foldl_nil]
      generalize (List.range count).foldl (runCall 3) state = before at *
      have hgone := gone hcoherent hsteps
      obtain ⟨hrest, hafter⟩ := runCall_steps hgone.coherent hbefore 3 count
      have hturned : Turned before (runCall 3 before count) count :=
        runCall_turned hgone.coherent hbefore fun call _ ↦ ⟨call.effort_le_four _, by decide⟩
      have hle := (gone hgone.coherent hrest).pending
      refine ⟨hsteps.trans hrest, hafter, ?_⟩
      rcases hprogress with hfewer | ⟨hsame, hrests⟩
      · exact .inl (Nat.lt_of_le_of_lt hle hfewer)
      · rcases hturned with hfewer | ⟨hsame', hundisturbed, hself⟩
        · exact .inl (hsame ▸ hfewer)
        · -- the turn ended no call, so those before it go on resting
          refine .inr ⟨hsame'.trans hsame, fun number call hlt hcall ↦ ?_⟩
          by_cases heq : number = count
          · exact hself call (heq ▸ hcall)
          · rw [hundisturbed.calls number heq] at hcall
            have hbelow : number < count := by omega
            exact (hrests number call hbelow hcall).mono fun flight _ ↦ hundisturbed.aloft flight

/-- A round ends a call or leaves all of them at rest. -/
theorem round_turns [LawfulBEq K] (hcoherent : Coherent state) (hwhole : Whole state) :
    Relation.ReflTransGen Advances state state.round ∧ Whole state.round ∧
      (state.round.pending < state.pending ∨ state.round.Still) := by
  obtain ⟨hsteps, hafter, hprogress⟩ := turns hcoherent hwhole state.calls.size
  refine ⟨hsteps, hafter, hprogress.imp_right fun hsame ↦ ?_⟩
  refine still_iff.2 fun number call hcall ↦ hsame.2 number call ?_ hcall
  rw [← (gone hcoherent hsteps).size]
  exact (Array.getElem?_eq_some_iff.1 hcall).1

/-- Calls are still where a script can move none of them. -/
theorem still_of_movable [LawfulBEq K] (hcoherent : Coherent state) (hwhole : Whole state)
    (h : state.movable = []) : state.Still := by
  refine still_iff.2 fun number call hcall ↦ ?_
  rcases move?_cases hcoherent hcall (fun _ _ ↦ hwhole _ _ _ _ hcall) with
    ⟨hrests, -⟩ | ⟨after, hmove, -⟩
  · exact hrests
  · have hmem : number ∈ state.movable := by
      refine List.mem_filter.2 ⟨List.mem_range.2 (Array.getElem?_eq_some_iff.1 hcall).1, ?_⟩
      rw [canMove, hmove]
      rfl
    rw [h] at hmem
    cases hmem

/-- A script moves no call where calls are still. -/
theorem movable_of_still [LawfulBEq K] (hcoherent : Coherent state) (hwhole : Whole state)
    (hstill : state.Still) : state.movable = [] := by
  refine List.filter_eq_nil_iff.2 fun number hmem ↦ ?_
  have hcall := Array.getElem?_eq_getElem (List.mem_range.1 hmem)
  rcases move?_cases hcoherent hcall (fun _ _ ↦ hwhole _ _ _ _ hcall) with
    ⟨-, hmove⟩ | ⟨after, -, hmoves⟩
  · simp [canMove, hmove]
  · obtain ⟨following, hstep, -⟩ := Relation.TransGen.head'_iff.1 hmoves.steps
    exact absurd hstep (hstill following)

/-- No more than one round for each pending call, and one more, is needed. -/
theorem rounds_still [LawfulBEq K] (hcoherent : Coherent state) (hwhole : Whole state)
    {limit : Nat} (hlimit : state.pending < limit) :
    Relation.ReflTransGen Advances state (rounds limit state) ∧ Whole (rounds limit state) ∧
      (rounds limit state).Still := by
  induction limit generalizing state with
  | zero => exact absurd hlimit (Nat.not_lt_zero _)
  | succ limit ih =>
      rw [rounds]
      split
      · next hnone =>
        exact ⟨.refl, hwhole, still_of_movable hcoherent hwhole (List.isEmpty_iff.1 hnone)⟩
      · obtain ⟨hsteps, hafter, hprogress⟩ := round_turns hcoherent hwhole
        rcases hprogress with hfewer | hstill
        · -- a round that ends a call takes one off what the limit is to cover
          obtain ⟨hrest, hend⟩ := ih (gone hcoherent hsteps).coherent hafter (by omega)
          exact ⟨hsteps.trans hrest, hend⟩
        · have hnone := movable_of_still (gone hcoherent hsteps).coherent hafter hstill
          have hover : rounds limit state.round = state.round := by
            cases limit with
            | zero => rfl
            | succ limit =>
                rw [rounds, hnone]
                rfl
          rw [hover]
          exact ⟨hsteps, hafter, hstill⟩

/-- Settling leaves calls that are still, and lets them go on by themselves on the way. -/
theorem still_settle [LawfulBEq K] (hcoherent : Coherent state) (hwhole : Whole state) :
    Relation.ReflTransGen Advances state state.settle ∧ Whole state.settle ∧
      state.settle.Still := by
  refine rounds_still hcoherent hwhole ?_
  have hle : state.pending ≤ state.calls.size := List.countP_le_length
  omega

/-! ## Scripts -/

omit [BEq K] in
/-- A change of calls that leaves their stages leaves none between taking its record away and
telling what became of its flight. -/
theorem whole_touch (h : Whole state)
    (hcalls : ∀ (number : Nat) (after : Call K R), following.calls[number]? = some after →
      after.stage = .entering ∨ ∃ call, state.calls[number]? = some call ∧
        after.stage = call.stage) : Whole following := by
  intro number after flight ending hafter hclosing
  rcases hcalls number after hafter with hentering | ⟨call, hcall, hstage⟩
  · rw [hclosing] at hentering
    cases hentering
  · exact h number call flight ending hcall (hstage ▸ hclosing)

omit [BEq K] in
theorem whole_modify (h : Whole state) (number : Nat) {change : Call K R → Call K R}
    (hstage : ∀ call, (change call).stage = call.stage) :
    Whole { state with calls := state.calls.modify number change } := by
  refine whole_touch h fun other after hafter ↦ .inr ?_
  simp only [Array.getElem?_modify] at hafter
  split at hafter
  · obtain ⟨call, hcall, rfl⟩ := Option.map_eq_some_iff.1 hafter
    exact ⟨call, hcall, hstage call⟩
  · exact ⟨after, hafter, rfl⟩

/-- A call that leads is given up in two steps, of which it makes the second one by itself. -/
theorem drop_of_leading {flight : Nat} (hcall : state.calls[number]? = some call)
    (hstage : call.stage = .leading flight) :
    ∃ released, state.giveUp? number = some released ∧ released.Advances (state.drop number) ∧
      (state.drop number).calls = (state.setStage number .dropped).calls := by
  obtain ⟨released, after, hrelease, hclose, hcalls⟩ :=
    release?_close? (fun _ ↦ some .dropped) hcall hstage rfl
  have hdrop : state.drop number = after := by
    have hgiveUp : state.giveUp? number = some released := hrelease
    simp [drop, hgiveUp, hclose]
  rw [hdrop]
  exact ⟨released, hrelease, ⟨.close number, number, rfl, hclose⟩, hcalls⟩

/-- A call that does not lead is given up at once, if it is pending. -/
theorem drop_of_not_leading (hnot : ∀ call flight, state.calls[number]? = some call →
      call.stage ≠ .leading flight) :
    state.drop number = state ∨ state.forsake? number = some (state.drop number) := by
  have hgiveUp : state.giveUp? number = none := by
    cases hcall : state.calls[number]? with
    | none => simp [giveUp?, release?, hcall]
    | some call =>
        simp only [giveUp?, release?, hcall, bind, Option.bind_some]
        split
        · next flight hstage => exact absurd hstage (hnot call flight hcall)
        · rfl
  rw [drop, hgiveUp]
  cases state.forsake? number with
  | none => exact .inl rfl
  | some after => exact .inr rfl

omit [BEq K] in
theorem whole_forsake? (h : Whole state) (hforsake : state.forsake? number = some following) :
    Whole following := by
  simp only [forsake?, bind, Option.bind_eq_some_iff] at hforsake
  obtain ⟨call, hcall, hforsake⟩ := hforsake
  split at hforsake
  · cases hforsake
    exact whole_setStage h hcall rfl (by simp)
  · cases hforsake
    exact whole_setStage h hcall rfl (by simp)
  · cases hforsake

omit [BEq K] in
theorem whole_deliver (h : Whole state) (number : Nat) (answer : R) :
    Whole (state.deliver number answer).2 := by
  unfold deliver
  split
  · exact h
  · split
    · exact whole_modify h number fun _ ↦ rfl
    · exact h

/-- An operation goes from a state that calls come to to another one. -/
theorem Reached.perform [LawfulBEq K] (h : Reached state) (hwhole : Whole state)
    (operation : Operation K R) :
    Reached (state.perform operation) ∧ Whole (state.perform operation) := by
  cases operation with
  | call key cancelled immediate =>
      refine ⟨h.next (.call key cancelled immediate) rfl, whole_touch hwhole ?_⟩
      intro number after hafter
      simp only [Calls.perform, Calls.call, Array.getElem?_push] at hafter
      split at hafter
      · cases hafter
        exact .inl rfl
      · exact .inr ⟨after, hafter, rfl⟩
  | deliver number answer =>
      exact ⟨h.next (.deliver number answer) rfl, whole_deliver hwhole number answer⟩
  | cancel number =>
      exact ⟨h.next (.cancel number) rfl, whole_modify hwhole number fun _ ↦ rfl⟩
  | drop number =>
      by_cases hleads : ∃ call flight, state.calls[number]? = some call ∧
          call.stage = .leading flight
      · obtain ⟨call, flight, hcall, hstage⟩ := hleads
        obtain ⟨released, hgiveUp, ⟨action, -, -, hact⟩, hcalls⟩ := drop_of_leading hcall hstage
        exact ⟨(h.next (.giveUp number) hgiveUp).next action hact,
          whole_setStage hwhole hcall hcalls (by simp)⟩
      · have hnot : ∀ call flight, state.calls[number]? = some call →
            call.stage ≠ .leading flight := fun call flight hcall hstage ↦
          hleads ⟨call, flight, hcall, hstage⟩
        rcases drop_of_not_leading hnot with hsame | hforsake
        · show Reached (state.drop number) ∧ Whole (state.drop number)
          rw [hsame]
          exact ⟨h, hwhole⟩
        · exact ⟨h.next (.forsake number) hforsake, whole_forsake? hwhole hforsake⟩

theorem Reached.advances (h : Reached state)
    (hsteps : Relation.ReflTransGen Advances state following) : Reached following := by
  induction hsteps with
  | refl => exact h
  | tail _ hstep ih =>
      obtain ⟨action, -, -, hact⟩ := hstep
      exact ih.next action hact

theorem script_concat (operations : List (Operation K R)) (operation : Operation K R) :
    script (operations ++ [operation]) = ((script operations).perform operation).settle := by
  simp [script]

/-- A script comes to states that calls can come to, and leaves calls that are still. -/
theorem script_still [LawfulBEq K] (operations : List (Operation K R)) :
    Reached (script operations) ∧ Whole (script operations) ∧ (script operations).Still := by
  induction operations using List.reverseRecOn with
  | nil =>
      have hnone : ∀ number : Nat, (empty : Calls K R).calls[number]? = none := by simp [empty]
      refine ⟨⟨[], .start⟩, fun number call _ _ hcall ↦ ?_, still_iff.2 fun number call hcall ↦ ?_⟩
      all_goals
        rw [script, List.foldl_nil, hnone] at hcall
        cases hcall
  | append_singleton operations operation ih =>
      obtain ⟨hreached, hwhole, -⟩ := ih
      obtain ⟨hperformed, hwhole'⟩ := hreached.perform hwhole operation
      rw [script_concat]
      obtain ⟨hsteps, hend, hstill⟩ := still_settle hperformed.coherent hwhole'
      exact ⟨hperformed.advances hsteps, hend, hstill⟩

/-- After each operation of a script calls go on by themselves. -/
theorem script_steps [LawfulBEq K] (operations : List (Operation K R))
    (operation : Operation K R) :
    Relation.ReflTransGen Advances ((script operations).perform operation)
      (script (operations ++ [operation])) := by
  obtain ⟨hreached, hwhole, -⟩ := script_still operations
  obtain ⟨hperformed, hwhole'⟩ := hreached.perform hwhole operation
  rw [script_concat]
  exact (still_settle hperformed.coherent hwhole').1

end ReadThrough.Calls
