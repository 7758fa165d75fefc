import ReadThrough.Proofs.Flight.Settling

/-!
# No waiter is stranded

A flight whose leader is cancelled or given up is handed over. Its record is taken away while the
flight is still aloft (`Losing`); once it is told lost its waiters contend (`Contending`); the first
one to ask for the key leads a new flight, and if its work has no answer yet the others join it one
by one (`Resumed`). Each phase is kept by whatever calls do by themselves, or left for the next one,
and calls are still in the last one alone. `no_waiter_stranded` puts this together with what holds
of calls that are still, and with the end of contention.
-/

namespace ReadThrough.Calls

variable {K R : Type}

section

variable {state : Calls K R} {number flight : Nat}

theorem mem_waiters : number ∈ state.waiters flight ↔ state.WaitsOn number flight := by
  have hawaited (call : Call K R) :
      call.awaited? = some flight ↔ call.stage = .waiting flight := by
    unfold Call.awaited?
    cases call.stage <;> simp
  simp only [waiters, List.mem_filter, List.mem_range, Option.any_eq_true, beq_iff_eq, hawaited]
  constructor
  · rintro ⟨-, call, hcall, hstage⟩
    exact ⟨call, hcall, hstage⟩
  · rintro ⟨call, hcall, hstage⟩
    exact ⟨(Array.getElem?_eq_some_iff.1 hcall).1, call, hcall, hstage⟩

theorem nodup_waiters (state : Calls K R) (flight : Nat) : (state.waiters flight).Nodup :=
  List.nodup_range.filter _

theorem length_waiters_congr {before after : Calls K R} {old new : Nat}
    (hiff : ∀ other, before.WaitsOn other old ↔ after.WaitsOn other new) :
    (before.waiters old).length = (after.waiters new).length := by
  refine ((List.perm_ext_iff_of_nodup (nodup_waiters _ _) (nodup_waiters _ _)).2 ?_).length_eq
  intro other
  rw [mem_waiters, mem_waiters, hiff]

/-- Where one call more waits there is one waiter more. -/
theorem length_waiters_succ {before after : Calls K R} {old new : Nat}
    (hnew : after.WaitsOn number new)
    (hiff : ∀ other, before.WaitsOn other old ↔ after.WaitsOn other new ∧ other ≠ number) :
    (before.waiters old).length + 1 = (after.waiters new).length := by
  have hmem : number ∈ after.waiters new := mem_waiters.2 hnew
  have hperm : (before.waiters old).Perm ((after.waiters new).erase number) := by
    refine (List.perm_ext_iff_of_nodup (nodup_waiters _ _) ((nodup_waiters _ _).erase _)).2 ?_
    intro other
    rw [(nodup_waiters _ _).mem_erase_iff, mem_waiters, mem_waiters, hiff, and_comm]
  rw [hperm.length_eq, List.length_erase_add_one hmem]

/-- A call has gone on to another stage, and the other calls are as they were. -/
structure Went (state following : Calls K R) (number : Nat) (call : Call K R)
    (stage : CallStage R) : Prop where
  before : state.calls[number]? = some call
  after : following.calls[number]? = some { call with stage }
  others : ∀ other : Nat, other ≠ number → following.calls[other]? = state.calls[other]?

namespace Went

variable {following : Calls K R} {call : Call K R} {stage : CallStage R}

theorem of_setStage (hcall : state.calls[number]? = some call)
    (hcalls : following.calls = (state.setStage number stage).calls) :
    Went state following number call stage where
  before := hcall
  after := by rw [hcalls, getElem?_setStage hcall, if_pos rfl]
  others other hne := by rw [hcalls, getElem?_setStage hcall, if_neg hne]

/-- Whether the call waits now is up to its new stage, and the others wait on what they did. -/
theorem waitsOn (h : Went state following number call stage) {other : Nat} :
    following.WaitsOn other flight ↔
      if other = number then stage = .waiting flight else state.WaitsOn other flight := by
  split
  · next heq => simp [WaitsOn, heq, h.after]
  · next hne => simp only [WaitsOn, h.others other hne]

theorem waitsOn_before (h : Went state following number call stage) :
    state.WaitsOn number flight ↔ call.stage = .waiting flight := by
  simp [WaitsOn, h.before]

/-- A call that neither waited on a flight nor does now leaves it as many waiters. -/
theorem length_waiters (h : Went state following number call stage)
    (hbefore : call.stage ≠ .waiting flight) (hafter : stage ≠ .waiting flight) :
    (state.waiters flight).length = (following.waiters flight).length := by
  refine length_waiters_congr fun other ↦ ?_
  rw [h.waitsOn]
  split
  · next heq => simp [heq, h.waitsOn_before, hbefore, hafter]
  · exact Iff.rfl

/-- A call that comes to wait on a flight is a waiter more. -/
theorem length_waiters_joined (h : Went state following number call (.waiting flight))
    (hbefore : call.stage ≠ .waiting flight) :
    (state.waiters flight).length + 1 = (following.waiters flight).length := by
  refine length_waiters_succ ⟨_, h.after, rfl⟩ fun other ↦ ?_
  rw [h.waitsOn]
  split
  · next heq => simp [heq, h.waitsOn_before, hbefore]
  · next hne => simp [hne]

/-- What a call may have become, where this one went on to what it may become. -/
theorem became {origin : Calls K R} {first found : Call K R} {held : CallStage R}
    {may : CallStage R → Prop} {other : Nat}
    (h : Went state following number { first with stage := held } stage)
    (hfirst : origin.calls[number]? = some first) (hmay : may stage)
    (hfound : origin.calls[other]? = some found)
    (hbefore : ∃ stage, state.calls[other]? = some { found with stage } ∧ may stage) :
    ∃ stage, following.calls[other]? = some { found with stage } ∧ may stage := by
  by_cases heq : other = number
  · subst heq
    rw [hfirst] at hfound
    cases hfound
    exact ⟨stage, h.after, hmay⟩
  · rw [h.others other heq]
    exact hbefore

end Went

end

/-- The leader of a flight is lost: its token fires, or its owner gives it up. -/
inductive Loses [BEq K] (state : Calls K R) (leader : Nat) : Calls K R → Prop where
  | cancelled : Loses state leader (state.cancel leader)
  | dropped : Loses state leader (state.drop leader)
  /-- its record is gone, and it has not told yet what became of its flight -/
  | released (after : Calls K R) : state.giveUp? leader = some after → Loses state leader after

/-- What becomes of the waiters of a flight that is lost: one of them starts its own work, which
began no sooner than that, and unless the work has an answer at once the others wait on its
flight. -/
def HandedOver (origin quiet : Calls K R) (key : K) (flight : Nat) : Prop :=
  ∃ (heir : Nat) (call : Call K R), origin.calls[heir]? = some call ∧
    call.stage = .waiting flight ∧ heir ∉ origin.started ∧
    quiet.started[origin.started.size]? = some heir ∧
    (call.answer = none →
      quiet.Leads heir key origin.table.flights.size ∧
      (∀ other, origin.WaitsOn other flight → other ≠ heir →
        quiet.WaitsOn other origin.table.flights.size) ∧
      quiet.table.executions = origin.table.executions + 1 ∧
      quiet.table.waits + 1 = origin.table.waits + (origin.waiters flight).length)

/-- The leader is about to lose its flight, and nothing else has happened. -/
structure Losing (origin state : Calls K R) (leader flight : Nat) : Prop where
  lead : ∃ led, state.calls[leader]? = some led ∧
    (led.stage = .leading flight ∧ led.cancelled = true ∧ led.answer = none ∨
      ∃ ending, led.stage = .closing flight ending ∧ ending.status = .lost)
  others : ∀ other : Nat, other ≠ leader → state.calls[other]? = origin.calls[other]?
  flights : state.table.flights = origin.table.flights
  started : state.started = origin.started
  executions : state.table.executions = origin.table.executions
  waits : state.table.waits = origin.table.waits

/-- The flight was lost, and nothing has happened to calls other than its waiters. -/
structure Aftermath (origin state : Calls K R) (leader flight : Nat) : Prop where
  lead : ∃ led, state.calls[leader]? = some led ∧ led.pending = false
  others : ∀ other : Nat, other ≠ leader → ¬origin.WaitsOn other flight →
    state.calls[other]? = origin.calls[other]?
  known : flight < state.table.flights.size
  lost : state.table.status flight = .lost
  aloft : ∀ other : Nat, other ≠ flight → origin.table.status other = .aloft →
    state.table.status other = .aloft

/-- The waiters contend, and none of them leads yet. -/
structure Contending (origin state : Calls K R) (leader flight : Nat) : Prop
    extends Aftermath origin state leader flight where
  waiters : ∀ (number : Nat) (call : Call K R), origin.calls[number]? = some call →
    call.stage = .waiting flight → ∃ stage, state.calls[number]? = some { call with stage } ∧
      (stage = .entering ∨ stage = .waiting flight)
  flights : state.table.flights.size = origin.table.flights.size
  started : state.started = origin.started
  executions : state.table.executions = origin.table.executions
  waits : state.table.waits = origin.table.waits

/-- One of the waiters leads a new flight, its work has no answer yet, and the others join it. -/
structure Resumed (origin state : Calls K R) (leader flight heir : Nat) : Prop
    extends Aftermath origin state leader flight where
  inherits : ∃ call, origin.calls[heir]? = some call ∧ call.stage = .waiting flight ∧
    call.answer = none ∧
    state.calls[heir]? = some { call with stage := .leading origin.table.flights.size }
  waiters : ∀ (number : Nat) (call : Call K R), number ≠ heir →
    origin.calls[number]? = some call → call.stage = .waiting flight →
    ∃ stage, state.calls[number]? = some { call with stage } ∧
      (stage = .entering ∨ stage = .waiting flight ∨ stage = .waiting origin.table.flights.size)
  started : state.started = origin.started.push heir
  executions : state.table.executions = origin.table.executions + 1
  waits : state.table.waits =
    origin.table.waits + (state.waiters origin.table.flights.size).length

variable [BEq K] [LawfulBEq K] {origin state following : Calls K R} {leader flight number : Nat}
  {heir : Nat} {key : K} {call : Call K R} {stage : CallStage R}

/-- Calls that are still, one of which leads. -/
structure Poised (origin : Calls K R) (leader : Nat) (key : K) (flight : Nat) : Prop where
  reached : Reached origin
  still : origin.Still
  leads : origin.Leads leader key flight

namespace Poised

theorem status (h : Poised origin leader key flight) :
    origin.table.status flight = .aloft := by
  obtain ⟨led, hled, rfl, hleading⟩ := h.leads
  exact h.reached.coherent.status_of_record
    ((h.reached.coherent.fits leader led hled).recorded flight hleading)

theorem known (h : Poised origin leader key flight) : flight < origin.table.flights.size :=
  (Array.getElem?_eq_some_iff.1 (FlightTable.status_eq_aloft.1 h.status)).1

/-- The waiters have the key of the leader, and their tokens are live. -/
theorem waiter (h : Poised origin leader key flight) (hcall : origin.calls[number]? = some call)
    (hstage : call.stage = .waiting flight) : call.key = key ∧ call.cancelled = false := by
  obtain ⟨led, hled, rfl, hleading⟩ := h.leads
  have hflying : led.flying? = some flight := by simp [Call.flying?, hleading]
  refine ⟨(h.reached.leader_of_waits hcall hstage hled hflying).symm, ?_⟩
  have hrests := still_iff.1 h.still number call hcall
  simp only [Call.Rests, hstage] at hrests
  exact hrests.2

omit [LawfulBEq K] in
theorem not_waits (h : Poised origin leader key flight) : ¬origin.WaitsOn leader flight := by
  obtain ⟨led, hled, -, hleading⟩ := h.leads
  rintro ⟨call, hcall, hstage⟩
  rw [hled] at hcall
  cases hcall
  rw [hleading] at hstage
  cases hstage

end Poised

namespace Aftermath

/-- Only waiters go on by themselves. -/
theorem mover (h : Aftermath origin state leader flight) (hpoised : Poised origin leader key flight)
    (hcall : state.calls[number]? = some call)
    (hprogress : Progress state following number call stage) : origin.WaitsOn number flight := by
  have hne : number ≠ leader := by
    rintro rfl
    obtain ⟨led, hled, hended⟩ := h.lead
    rw [hled] at hcall
    cases hcall
    rw [hprogress.pending] at hended
    cases hended
  by_contra hother
  have hbefore := hcall
  rw [h.others number hne hother] at hbefore
  refine hprogress.not_rests ((still_iff.1 hpoised.still number call hbefore).mono ?_)
  intro awaited hstage haloft
  refine h.aloft awaited ?_ haloft
  rintro rfl
  exact hother ⟨call, hbefore, hstage⟩

/-- Only waiters lead for the key. -/
theorem leads_waiter (h : Aftermath origin state leader flight)
    (hpoised : Poised origin leader key flight) {other : Nat}
    (hleads : state.Leads number key other) : origin.WaitsOn number flight := by
  obtain ⟨call, hcall, hkey, hstage⟩ := hleads
  by_contra hother
  have hne : number ≠ leader := by
    rintro rfl
    obtain ⟨led, hled, hended⟩ := h.lead
    rw [hled] at hcall
    cases hcall
    simp [Call.pending, hstage] at hended
  rw [h.others number hne hother] at hcall
  exact hne (hpoised.reached.coherent.leads_unique ⟨call, hcall, hkey, hstage⟩ hpoised.leads)

/-- What a waiter does by itself leaves the others alone. -/
theorem step (h : Aftermath origin state leader flight) (hpoised : Poised origin leader key flight)
    (hwent : Went state following number call stage)
    (hprogress : Progress state following number call stage)
    (hopen : ∀ flight ending, call.stage ≠ .closing flight ending) :
    Aftermath origin following leader flight := by
  have hwaits := h.mover hpoised hwent.before hprogress
  constructor
  · obtain ⟨led, hled, hended⟩ := h.lead
    refine ⟨led, ?_, hended⟩
    rw [hwent.others leader (fun heq ↦ hpoised.not_waits (heq ▸ hwaits)), hled]
  · intro other hne hother
    rw [hwent.others other (fun heq ↦ hother (heq ▸ hwaits)), h.others other hne hother]
  · exact Nat.lt_of_lt_of_le h.known hprogress.size_le
  · rcases hprogress.status hopen flight with hsame | ⟨hnew, -⟩
    · exact hsame.trans h.lost
    · exact absurd h.known (Nat.not_lt.2 (Nat.le_of_eq hnew.symm))
  · intro other hne haloft
    rcases hprogress.status hopen other with hsame | ⟨-, hnew⟩
    · exact hsame.trans (h.aloft other hne haloft)
    · exact hnew

/-- Whoever waits on a flight that began since was a waiter. -/
theorem waits_waiter (h : Aftermath origin state leader flight)
    (hpoised : Poised origin leader key flight)
    (hwaits : state.WaitsOn number origin.table.flights.size) : origin.WaitsOn number flight := by
  obtain ⟨call, hcall, hstage⟩ := hwaits
  by_contra hother
  have hne : number ≠ leader := by
    rintro rfl
    obtain ⟨led, hled, hended⟩ := h.lead
    rw [hled] at hcall
    cases hcall
    simp [Call.pending, hstage] at hended
  rw [h.others number hne hother] at hcall
  have hrests := still_iff.1 hpoised.still number call hcall
  simp only [Call.Rests, hstage, FlightTable.status_eq_aloft] at hrests
  exact Nat.lt_irrefl _ (Array.getElem?_eq_some_iff.1 hrests.1).1

end Aftermath

/-- The leader takes its record away, or tells that its flight is lost. -/
theorem Losing.step (h : Losing origin state leader flight)
    (hpoised : Poised origin leader key flight) (hstep : state.Advances following) :
    Losing origin following leader flight ∨ Contending origin following leader flight := by
  obtain ⟨number, call, stage, hcall, hcalls, hprogress⟩ := hstep.progress
  have hstatus : ∀ other, state.table.status other = origin.table.status other := fun other ↦ by
    rw [FlightTable.status, h.flights]
    rfl
  obtain rfl : number = leader := by
    by_contra hne
    rw [h.others number hne] at hcall
    exact hprogress.not_rests ((still_iff.1 hpoised.still number call hcall).mono
      fun awaited _ haloft ↦ (hstatus awaited).trans haloft)
  obtain ⟨led, hled, hlosing⟩ := h.lead
  rw [hcall] at hled
  cases hled
  have hwent := Went.of_setStage hcall hcalls
  have hothers (other : Nat) (hne : other ≠ number) :
      following.calls[other]? = origin.calls[other]? :=
    (hwent.others other hne).trans (h.others other hne)
  rcases hlosing with ⟨hstage, hcancelled, hanswer⟩ | ⟨ending, hstage, hlost⟩
  · left
    cases hprogress with
    | released other ending hleading hreason htable hstarted =>
        rw [hstage] at hleading
        cases hleading
        have hending : ending = .cancelled := by
          rcases hreason with ⟨value, -, hvalue⟩ | ⟨hending, -⟩
          · rw [hanswer] at hvalue
            cases hvalue
          · exact hending
        refine ⟨⟨_, hwent.after, .inr ⟨ending, rfl, by rw [hending]; rfl⟩⟩, hothers,
          ?_, ?_, ?_, ?_⟩
        · rw [htable]; exact h.flights
        · rw [hstarted]; exact h.started
        · rw [htable]; exact h.executions
        · rw [htable]; exact h.waits
    | joined _ hother | led hother | closed _ _ hother | took _ _ hother | readmitted _ hother
    | left _ hother =>
        rw [hstage] at hother
        cases hother
  · right
    cases hprogress with
    | closed other ending' hclosing htable hstarted =>
        rw [hstage] at hclosing
        cases hclosing
        have hknown : flight < state.table.flights.size := h.flights ▸ hpoised.known
        refine ⟨⟨⟨_, hwent.after, by cases ending <;> rfl⟩, fun other hne _ ↦ hothers other hne,
          ?_, ?_, ?_⟩, ?_, ?_, ?_, ?_, ?_⟩
        · rw [htable, FlightTable.flights_resolve, Array.size_setIfInBounds]
          exact hknown
        · rw [htable, FlightTable.status_resolve _ hknown, if_pos rfl, hlost]
        · intro other hne haloft
          rw [htable, FlightTable.status_resolve _ hknown, if_neg hne, hstatus, haloft]
        · intro waiter waiting hwaiter hwaits
          refine ⟨.waiting flight, ?_, .inr rfl⟩
          have hne : waiter ≠ number := by
            rintro rfl
            exact hpoised.not_waits ⟨waiting, hwaiter, hwaits⟩
          rw [hothers waiter hne, hwaiter, ← hwaits]
        · rw [htable, FlightTable.flights_resolve, Array.size_setIfInBounds, h.flights]
        · rw [hstarted]; exact h.started
        · rw [htable]; exact h.executions
        · rw [htable]; exact h.waits
    | joined _ hother | led hother | released _ _ hother | took _ _ hother | readmitted _ hother
    | left _ hother =>
        rw [hstage] at hother
        cases hother

/-- A waiter has started its own work, which has an answer at once. -/
def Quick (origin state : Calls K R) (flight : Nat) : Prop :=
  ∃ heir call, origin.calls[heir]? = some call ∧ call.stage = .waiting flight ∧
    call.answer ≠ none ∧ state.started[origin.started.size]? = some heir

namespace Contending

/-- Nobody leads for the key, so that it has no record. -/
theorem free (h : Contending origin state leader flight) (hpoised : Poised origin leader key flight)
    (hcoherent : Coherent state) (other : Nat) : (key, other) ∉ state.table.records := by
  intro hrecord
  obtain ⟨number, hleads⟩ := hcoherent.led _ _ hrecord
  obtain ⟨waiter, hwaiter, hwaits⟩ := h.leads_waiter hpoised hleads
  obtain ⟨stage, hstage, hcontends⟩ := h.waiters number waiter hwaiter hwaits
  obtain ⟨led, hled, -, hleading⟩ := hleads
  rw [hstage] at hled
  cases hled
  rcases hcontends with rfl | rfl <;> cases hleading

/-- Nobody waits yet on the flight that is to begin. -/
theorem not_waits (h : Contending origin state leader flight)
    (hpoised : Poised origin leader key flight) :
    ¬state.WaitsOn number origin.table.flights.size := by
  intro hjoined
  obtain ⟨waiter, hwaiter, hwaits⟩ := h.waits_waiter hpoised hjoined
  obtain ⟨stage, hstage, hcontends⟩ := h.waiters number waiter hwaiter hwaits
  obtain ⟨joined, hfound, hwaiting⟩ := hjoined
  rw [hstage] at hfound
  cases hfound
  rcases hcontends with rfl | rfl
  · cases hwaiting
  · exact absurd (CallStage.waiting.inj hwaiting) (Nat.ne_of_lt hpoised.known)

/-- A waiter comes back to contend, or asks for the key and leads a new flight. -/
theorem step (h : Contending origin state leader flight) (hpoised : Poised origin leader key flight)
    (hcoherent : Coherent state) (hstep : state.Advances following) :
    Contending origin following leader flight ∨
      (∃ heir, Resumed origin following leader flight heir) ∨ Quick origin following flight := by
  obtain ⟨number, call, stage, hcall, hcalls, hprogress⟩ := hstep.progress
  obtain ⟨first, hfirst, hwaits⟩ := h.mover hpoised hcall hprogress
  obtain ⟨hkey, hlive⟩ := hpoised.waiter hfirst hwaits
  obtain ⟨held, hheld, hcontends⟩ := h.waiters number first hfirst hwaits
  rw [hcall] at hheld
  cases hheld
  have hopen : ∀ flight ending, held ≠ .closing flight ending := by
    rcases hcontends with rfl | rfl <;> simp
  have hwent := Went.of_setStage hcall hcalls
  have hafter := h.toAftermath.step hpoised hwent hprogress hopen
  cases hprogress with
  | joined other hentering hrecord =>
      exact absurd (hkey ▸ hrecord) (h.free hpoised hcoherent other)
  | led hentering hfree htable hstarted =>
      right
      by_cases hanswer : first.answer = none
      · refine .inl ⟨number, hafter, ⟨first, hfirst, hwaits, hanswer, ?_⟩, ?_, ?_, ?_, ?_⟩
        · rw [hwent.after, h.flights]
        · intro other waiter hne hwaiter hwaits'
          obtain ⟨stage', hstage', hcontends'⟩ := h.waiters other waiter hwaiter hwaits'
          exact ⟨stage', (hwent.others other hne).trans hstage', hcontends'.imp_right .inl⟩
        · rw [hstarted, h.started]
        · rw [htable, ← h.executions]
        · -- nobody waits on the new flight yet, so the waits so far are the ones before
          have hnone : following.waiters origin.table.flights.size = [] := by
            refine List.eq_nil_iff_forall_not_mem.2 fun other hmem ↦ ?_
            have hjoined := hwent.waitsOn.1 (mem_waiters.1 hmem)
            split at hjoined
            · cases hjoined
            · exact h.not_waits hpoised hjoined
          rw [hnone, List.length_nil, Nat.add_zero, htable, ← h.waits]
      · refine .inr ⟨number, first, hfirst, hwaits, hanswer, ?_⟩
        rw [hstarted, ← h.started, Array.getElem?_push_size]
  | readmitted other hwaiting hlost htable hstarted =>
      refine .inl ⟨hafter, fun other waiter hwaiter hwaits' ↦
        hwent.became hfirst (.inl rfl) hwaiter (h.waiters other waiter hwaiter hwaits'),
        ?_, ?_, ?_, ?_⟩
      · rw [htable]; exact h.flights
      · rw [hstarted]; exact h.started
      · rw [htable]; exact h.executions
      · rw [htable]; exact h.waits
  | took other value hwaiting hlanded =>
      rcases hcontends with rfl | rfl
      · cases hwaiting
      · cases hwaiting
        rw [h.lost] at hlanded
        cases hlanded
  | left other hwaiting hcancelled =>
      rw [hlive] at hcancelled
      cases hcancelled
  | released other ending hleading => rcases hcontends with rfl | rfl <;> cases hleading
  | closed other ending hclosing => exact absurd hclosing (hopen other ending)

end Contending

namespace Resumed

/-- The new flight has the record of the key. -/
theorem recorded (h : Resumed origin state leader flight heir)
    (hpoised : Poised origin leader key flight) (hcoherent : Coherent state) :
    (key, origin.table.flights.size) ∈ state.table.records := by
  obtain ⟨first, hfirst, hwaits, -, hleading⟩ := h.inherits
  rw [← (hpoised.waiter hfirst hwaits).1]
  exact (hcoherent.fits heir _ hleading).recorded _ rfl

/-- Another waiter goes on by itself, since the heir rests. -/
theorem mover (h : Resumed origin state leader flight heir)
    (hpoised : Poised origin leader key flight) (hcall : state.calls[number]? = some call)
    (hprogress : Progress state following number call stage) :
    number ≠ heir ∧ origin.WaitsOn number flight := by
  refine ⟨?_, h.toAftermath.mover hpoised hcall hprogress⟩
  rintro rfl
  obtain ⟨first, hfirst, hwaits, hanswer, hleading⟩ := h.inherits
  rw [hcall] at hleading
  cases hleading
  exact hprogress.not_rests ⟨hanswer, (hpoised.waiter hfirst hwaits).2⟩

/-- The other waiters come back to contend, and join the new flight. -/
theorem step (h : Resumed origin state leader flight heir)
    (hpoised : Poised origin leader key flight) (hcoherent : Coherent state)
    (hstep : state.Advances following) : Resumed origin following leader flight heir := by
  obtain ⟨number, call, stage, hcall, hcalls, hprogress⟩ := hstep.progress
  obtain ⟨hne, first, hfirst, hwaits⟩ := h.mover hpoised hcall hprogress
  obtain ⟨hkey, hlive⟩ := hpoised.waiter hfirst hwaits
  have hrecord := h.recorded hpoised hcoherent
  have haloft := hcoherent.status_of_record hrecord
  obtain ⟨held, hheld, hcontends⟩ := h.waiters number first hne hfirst hwaits
  rw [hcall] at hheld
  cases hheld
  have hopen : ∀ flight ending, held ≠ .closing flight ending := by
    rcases hcontends with rfl | rfl | rfl <;> simp
  have hwent := Went.of_setStage hcall hcalls
  have hafter := h.toAftermath.step hpoised hwent hprogress hopen
  have hinherits : ∃ call, origin.calls[heir]? = some call ∧ call.stage = .waiting flight ∧
      call.answer = none ∧
      following.calls[heir]? = some { call with stage := .leading origin.table.flights.size } := by
    obtain ⟨call, hfound, hcallWaits, hanswer, hleading⟩ := h.inherits
    exact ⟨call, hfound, hcallWaits, hanswer, (hwent.others heir (Ne.symm hne)).trans hleading⟩
  cases hprogress with
  | joined other hentering hrecord' htable hstarted =>
      obtain rfl : other = origin.table.flights.size :=
        hcoherent.record_unique (hkey ▸ hrecord') hrecord
      have hcontended : held ≠ .waiting origin.table.flights.size := by
        rintro rfl
        cases hentering
      have hcount := hwent.length_waiters_joined hcontended
      refine ⟨hafter, hinherits, fun waiter call hother hwaiter hwaits' ↦
        hwent.became hfirst (.inr (.inr rfl)) hwaiter
          (h.waiters waiter call hother hwaiter hwaits'), ?_, ?_, ?_⟩
      · rw [hstarted]; exact h.started
      · rw [htable]; exact h.executions
      · rw [htable, ← hcount, ← Nat.add_assoc, ← h.waits]
  | readmitted other hwaiting hlost htable hstarted =>
      have hapart : held ≠ .waiting origin.table.flights.size := by
        rintro rfl
        cases hwaiting
        rw [haloft] at hlost
        cases hlost
      have hcount := hwent.length_waiters hapart (by simp)
      refine ⟨hafter, hinherits, fun waiter call hother hwaiter hwaits' ↦
        hwent.became hfirst (.inl rfl) hwaiter
          (h.waiters waiter call hother hwaiter hwaits'), ?_, ?_, ?_⟩
      · rw [hstarted]; exact h.started
      · rw [htable]; exact h.executions
      · rw [htable, ← hcount, h.waits]
  | led hentering hfree =>
      -- the heir has the record, so nobody else can lead
      exact absurd hrecord (hkey ▸ hfree _)
  | took other value hwaiting hlanded =>
      rcases hcontends with rfl | rfl | rfl
      · cases hwaiting
      · cases hwaiting
        rw [h.lost] at hlanded
        cases hlanded
      · cases hwaiting
        rw [haloft] at hlanded
        cases hlanded
  | left other hwaiting hcancelled =>
      rw [hlive] at hcancelled
      cases hcancelled
  | released other ending hleads => rcases hcontends with rfl | rfl | rfl <;> cases hleads
  | closed other ending hclosing => exact absurd hclosing (hopen other ending)

end Resumed

/-- Where the handing over of a flight has got to. -/
inductive Handing (origin state : Calls K R) (leader flight : Nat) : Prop where
  | losing : Losing origin state leader flight → Handing origin state leader flight
  | contending : Contending origin state leader flight → Handing origin state leader flight
  | resumed (heir : Nat) :
      Resumed origin state leader flight heir → Handing origin state leader flight
  | quick : Quick origin state flight → Handing origin state leader flight

namespace Handing

theorem step (h : Handing origin state leader flight) (hpoised : Poised origin leader key flight)
    (hcoherent : Coherent state) (hstep : state.Advances following) :
    Handing origin following leader flight := by
  cases h with
  | losing h =>
      rcases h.step hpoised hstep with hlosing | hcontending
      · exact .losing hlosing
      · exact .contending hcontending
  | contending h =>
      rcases h.step hpoised hcoherent hstep with hcontending | ⟨heir, hresumed⟩ | hquick
      · exact .contending hcontending
      · exact .resumed heir hresumed
      · exact .quick hquick
  | resumed heir h => exact .resumed heir (h.step hpoised hcoherent hstep)
  | quick h =>
      obtain ⟨heir, waiter, hwaiter, hwaits, hanswer, hstarted⟩ := h
      obtain ⟨action, -, -, hact⟩ := hstep
      have hlater := (act?_move hact).later hcoherent
      exact .quick ⟨heir, waiter, hwaiter, hwaits, hanswer, hlater.started _ _ hstarted⟩

theorem steps (h : Handing origin state leader flight) (hpoised : Poised origin leader key flight)
    (hcoherent : Coherent state) (hsteps : Relation.ReflTransGen Advances state following) :
    Handing origin following leader flight := by
  induction hsteps with
  | refl => exact h
  | tail hbefore hstep ih => exact ih.step hpoised (gone hcoherent hbefore).coherent hstep

/-- Once calls are still the flight has been handed over. -/
theorem handedOver (h : Handing origin state leader flight)
    (hpoised : Poised origin leader key flight) (hwaiter : ∃ waiter, origin.WaitsOn waiter flight)
    (hstill : state.Still) : HandedOver origin state key flight := by
  have hrests := still_iff.1 hstill
  have hidle : ∀ {heir : Nat} {call : Call K R}, origin.calls[heir]? = some call →
      call.stage = .waiting flight → heir ∉ origin.started := fun hcall hstage ↦
    (hpoised.reached.coherent.fits _ _ hcall).idle (.inr ⟨flight, hstage⟩)
  cases h with
  | losing h =>
      obtain ⟨led, hled, ⟨hstage, hcancelled, -⟩ | ⟨ending, hstage, -⟩⟩ := h.lead
      all_goals
        have hresting := hrests leader led hled
        simp [Call.Rests, hstage] at hresting
      rw [hcancelled] at hresting
      cases hresting.2
  | contending h =>
      obtain ⟨waiter, call, hcall, hstage⟩ := hwaiter
      obtain ⟨stage, hfound, hcontends⟩ := h.waiters waiter call hcall hstage
      have hresting := hrests waiter _ hfound
      rcases hcontends with rfl | rfl
      · exact absurd hresting id
      · simp [Call.Rests, h.lost] at hresting
  | resumed heir h =>
      obtain ⟨call, hcall, hstage, hanswer, hleading⟩ := h.inherits
      have hjoined : ∀ other, origin.WaitsOn other flight → other ≠ heir →
          state.WaitsOn other origin.table.flights.size := by
        rintro other ⟨waiter, hwaiter, hwaits⟩ hne
        obtain ⟨stage, hfound, rfl | rfl | rfl⟩ := h.waiters other waiter hne hwaiter hwaits
        · exact absurd (hrests other _ hfound) id
        · have hresting := hrests other _ hfound
          simp [Call.Rests, h.lost] at hresting
        · exact ⟨_, hfound, rfl⟩
      have hcount : (state.waiters origin.table.flights.size).length + 1 =
          (origin.waiters flight).length := by
        refine length_waiters_succ ⟨call, hcall, hstage⟩ fun other ↦ ⟨fun hwaits ↦ ?_, ?_⟩
        · refine ⟨h.waits_waiter hpoised hwaits, ?_⟩
          rintro rfl
          obtain ⟨found, hfound, hwaiting⟩ := hwaits
          rw [hleading] at hfound
          cases hfound
          cases hwaiting
        · rintro ⟨hwaits, hne⟩
          exact hjoined other hwaits hne
      refine ⟨heir, call, hcall, hstage, hidle hcall hstage, ?_, fun _ ↦ ⟨?_, hjoined, ?_, ?_⟩⟩
      · rw [h.started, Array.getElem?_push_size]
      · exact ⟨_, hleading, (hpoised.waiter hcall hstage).1, rfl⟩
      · exact h.executions
      · rw [h.waits, Nat.add_assoc, hcount]
  | quick h =>
      obtain ⟨heir, call, hcall, hstage, hanswer, hstarted⟩ := h
      exact ⟨heir, call, hcall, hstage, hidle hcall hstage, hstarted,
        fun hnone ↦ absurd hnone hanswer⟩

end Handing

/-- A leader whose token fires, or that is given up, is about to lose its flight. -/
theorem Loses.handing (h : Loses origin leader state) (hpoised : Poised origin leader key flight) :
    Handing origin state leader flight := by
  obtain ⟨led, hled, -, hleading⟩ := hpoised.leads
  have hrests := still_iff.1 hpoised.still leader led hled
  simp only [Call.Rests, hleading] at hrests
  have hreleased : ∀ {after : Calls K R}, origin.giveUp? leader = some after →
      Losing origin after leader flight := by
    intro after hgiveUp
    simp only [giveUp?, release?, hled, hleading, bind, Option.bind_some, Option.some.injEq]
      at hgiveUp
    subst hgiveUp
    refine ⟨⟨_, (getElem?_setStage hled).trans (if_pos rfl), .inr ⟨.dropped, rfl, rfl⟩⟩,
      fun other hne ↦ (getElem?_setStage hled).trans (if_neg hne), rfl, rfl, rfl, rfl⟩
  cases h with
  | cancelled =>
      refine .losing ⟨⟨{ led with cancelled := true }, ?_, .inl ⟨hleading, rfl, hrests.1⟩⟩,
        fun other hne ↦ ?_, rfl, rfl, rfl, rfl⟩
      · simp [cancel, Array.getElem?_modify, hled]
      · rw [cancel, Array.getElem?_modify, if_neg (Ne.symm hne)]
  | dropped =>
      obtain ⟨released, hgiveUp, hstep, -⟩ := drop_of_leading hled hleading
      have hcoherent := (hpoised.reached.next (.giveUp leader) hgiveUp).coherent
      exact (Handing.losing (hreleased hgiveUp)).step hpoised hcoherent hstep
  | released _ hgiveUp => exact .losing (hreleased hgiveUp)

omit [LawfulBEq K] in
theorem Loses.reached (h : Loses origin leader state) (hpoised : Poised origin leader key flight) :
    Reached state := by
  obtain ⟨led, hled, -, hleading⟩ := hpoised.leads
  cases h with
  | cancelled => exact hpoised.reached.next (.cancel leader) rfl
  | dropped =>
      obtain ⟨released, hgiveUp, ⟨action, -, -, hact⟩, -⟩ := drop_of_leading hled hleading
      exact (hpoised.reached.next (.giveUp leader) hgiveUp).next action hact
  | released _ hgiveUp => exact hpoised.reached.next (.giveUp leader) hgiveUp

/-- No waiter is stranded. Every script comes to states where calls are still, in each of which it
performed an operation and then let calls go on by themselves. In whatever order calls go on, they
can only for so long. Once they are still, every pending call leads the record of its key or waits
on the flight of that record, which a pending call leads, so that as many keys are in flight as the
pending calls have. When a leader is cancelled or given up and its flight has waiters, whose tokens
are all live where calls are still, then one of them has started its own work once calls are still
again, and unless that work had an answer at once the others wait on it, with one more execution and
one more wait for each of them. -/
theorem no_waiter_stranded :
    (∀ operations : List (Operation K R), Reached (script operations) ∧
      (script operations).Still ∧
      ∀ operation, Relation.ReflTransGen Advances ((script operations).perform operation)
        (script (operations ++ [operation]))) ∧
    ∀ state : Calls K R, Reached state →
      (∀ run, List.IsChain Advances (state :: run) → run.length ≤ state.effort) ∧
      (state.Still →
        (∀ (number : Nat) (call : Call K R), state.calls[number]? = some call →
          call.pending = true → state.Placed number call.key) ∧
        state.table.inFlight = state.pendingKeys.length ∧
        ∀ (leader : Nat) (key : K) (flight : Nat) (lost quiet : Calls K R),
          state.Leads leader key flight → (∃ waiter, state.WaitsOn waiter flight) →
          Loses state leader lost → Relation.ReflTransGen Advances lost quiet → quiet.Still →
          HandedOver state quiet key flight) := by
  refine ⟨fun operations ↦ ?_, fun state hreached ↦ ⟨fun run hrun ↦ ?_, fun hstill ↦ ⟨?_, ?_, ?_⟩⟩⟩
  · obtain ⟨hreached, -, hstill⟩ := script_still operations
    exact ⟨hreached, hstill, script_steps operations⟩
  · exact length_le_effort hreached.coherent hrun
  · exact fun number call hcall hpending ↦ hreached.placed hstill hcall hpending
  · exact hreached.inFlight_eq hstill
  · intro leader key flight lost quiet hleads hwaiter hloses hsteps hquiet
    have hpoised : Poised state leader key flight := ⟨hreached, hstill, hleads⟩
    have hhanding := (hloses.handing hpoised).steps hpoised (hloses.reached hpoised).coherent hsteps
    exact hhanding.handedOver hpoised hwaiter hquiet

/-- A leader with two waiters is cancelled, in a script. -/
theorem no_waiter_stranded_of_three :
    let calls : List (Operation String Nat) :=
      [.call "k" false none, .call "k" false none, .call "k" false none]
    HandedOver (script calls) (script (calls ++ [.cancel 0])) "k" 0 := by
  intro calls
  have hscripts := (no_waiter_stranded (K := String) (R := Nat)).1
  obtain ⟨hreached, hstill, hsteps⟩ := hscripts calls
  obtain ⟨-, hquiet, -⟩ := hscripts (calls ++ [.cancel 0])
  have hleads : (script calls).Leads 0 "k" 0 := ⟨_, rfl, rfl, rfl⟩
  have hwaits : (script calls).WaitsOn 1 0 := ⟨_, rfl, rfl⟩
  exact ((no_waiter_stranded.2 _ hreached).2 hstill).2.2 0 "k" 0 _ _ hleads ⟨1, hwaits⟩ .cancelled
    (hsteps (.cancel 0)) hquiet

end ReadThrough.Calls
