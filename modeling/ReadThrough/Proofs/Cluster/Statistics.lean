import ReadThrough.Proofs.Cluster.Census
import ReadThrough.Proofs.Cluster.Contents
import ReadThrough.Proofs.Cluster.Course

/-!
# Statistics reconcile

The statistics of a group agree with each other and with what happened to it
(`statistics_reconcile`). The counters are kept in four places and moved at different steps of a
get, so that the agreement is one of the counters together with the gets that are under way: a get
that found nothing but has not asked the flight table yet is counted as a load alone, and a leader
whose call has no answer is counted by the flight table alone.
-/

namespace ReadThrough

/-- A get that is about to ask the flight table. -/
def FrameStage.enters : FrameStage → Bool
  | .missed => true
  | _ => false

/-- A leader that has not got the answer of a peer, and may still get one. -/
def FrameStage.mayFetch : FrameStage → Bool
  | .leading _ .recheck | .leading _ (.fetching _) => true
  | _ => false

/-- A leader that has not got the answer of its loader, and may still get one. -/
def FrameStage.mayLoad : FrameStage → Bool
  | .leading _ .recheck | .leading _ (.fetching _) | .leading _ .loading => true
  | _ => false

/-- A get that waits on a flight that is lost, and will ask the flight table once more. -/
def FrameStage.stranded (table : FlightTable String Outcome) : FrameStage → Bool
  | .waiting flight => table.status flight = .lost
  | _ => false

theorem FrameStage.enters_eq_false {stage : FrameStage} (h : stage ≠ .missed) :
    stage.enters = false := by
  cases stage with
  | missed => exact absurd rfl h
  | _ => rfl

theorem passing_enters : Passing FrameStage.enters :=
  ⟨rfl, fun _ ↦ rfl, fun _ _ ↦ rfl⟩

theorem passing_mayFetch : Passing FrameStage.mayFetch :=
  ⟨rfl, fun _ ↦ rfl, fun _ _ ↦ rfl⟩

theorem passing_mayLoad : Passing FrameStage.mayLoad :=
  ⟨rfl, fun _ ↦ rfl, fun _ _ ↦ rfl⟩

/-- The statistics of a group agree, where its budget is given, how many of its gets were refused
because their token had fired, and how many entries were inserted into its tiers. -/
structure GroupStats.Reconciles (stats : GroupStats) (cacheBytes refused inserted : Nat) :
    Prop where
  gets : stats.gets = stats.cacheHits + stats.negativeHits + stats.loads + refused
  hits : stats.cacheHits = stats.main.hits + stats.hot.hits
  mainReads : 0 < cacheBytes → stats.main.gets = stats.gets - refused
  hotReads : 0 < cacheBytes → stats.hot.gets = stats.main.gets - stats.main.hits
  evictions : stats.evictions = stats.main.evictions + stats.hot.evictions
  fetched : stats.peerLoads + stats.peerErrors ≤ stats.loadsDeduped
  loaded : stats.localLoads + stats.localLoadErrors ≤ stats.loadsDeduped
  entries : inserted = stats.main.items + stats.hot.items + stats.evictions + stats.removals +
    stats.expirations

namespace Cluster

variable {c following : Cluster} {action : Action} {number index : Nat} {past : List Moment}
  {group after : Group} {refusals insertions : Nat}

/-! ## Balance -/

/-- A frame that asks the flight table has asked its group before. -/
theorem Contends.ne_asked {frame : Frame} (h : Contends frame group) : frame.stage ≠ .asked := by
  rcases h with hstage | ⟨flight, hstage, -⟩ <;> simp [hstage]

/-- A turn keeps the group of its frame in balance. -/
theorem Turn.balanced {task : Task} {frame : Frame} {outer : List Frame} {stage : FrameStage}
    (turn : Turn c number task frame group action stage after)
    (htask : c.tasks[number]? = some task) (hframes : task.frames = frame :: outer)
    (hgroup : c.groups[frame.group]? = some group) (hsound : group.cache.Sound)
    (h : group.Balanced refusals insertions) :
    after.Balanced (refusals + (c.refuses frame.group action).toNat)
      (insertions + (c.inserts frame.group action).toNat) := by
  have hkept (hstage : frame.stage ≠ .asked) (haction : action = .step number)
      (hafter : after.Balanced refusals insertions) :
      after.Balanced (refusals + (c.refuses frame.group action).toNat)
        (insertions + (c.inserts frame.group action).toNat) := by
    subst haction
    rw [refuses_step htask hframes hstage, inserts_step htask hframes turn.unanswered]
    exact hafter
  have hconsulted (hstage : frame.stage = .asked) (haction : action = .step number)
      (hafter : after = (group.consult frame.key c.now (frame.hearsToken && task.cancelled)).2) :
      after.Balanced (refusals + (c.refuses frame.group action).toNat)
        (insertions + (c.inserts frame.group action).toNat) := by
    subst haction hafter
    have hrefuses : c.refuses frame.group (.step number) =
        (frame.hearsToken && task.cancelled) := by
      simp [refuses, htask, hframes, hstage]
    rw [hrefuses, inserts_step htask hframes turn.unanswered]
    exact h.consult hsound frame.key c.now _
  cases turn with
  | answered outcome _ hstage hconsult => exact hconsulted hstage rfl (by rw [hconsult])
  | missed _ hstage hconsult => exact hconsulted hstage rfl (by rw [hconsult])
  | joined flight hcontends =>
      exact hkept hcontends.ne_asked rfl (h.congr rfl rfl ⟨rfl, rfl, rfl, rfl⟩ ⟨rfl, rfl, rfl⟩)
  | led hcontends =>
      exact hkept hcontends.ne_asked rfl (h.congr rfl rfl ⟨rfl, rfl, rfl, rfl⟩ ⟨rfl, rfl, rfl⟩)
  | took flight outcome hstage | found flight value tier hstage | loads flight node hstage
  | fetches flight node peer hstage => exact hkept (by simp [hstage]) rfl h
  | refused flight node peer sharesToken fault hstage =>
      exact hkept (by simp [hstage]) rfl (h.takeFetched hsound frame.key c.now (.error fault))
  | landed flight outcome hstage =>
      exact hkept (by simp [hstage]) rfl (h.congr rfl rfl ⟨rfl, rfl, rfl, rfl⟩ ⟨rfl, rfl, rfl⟩)
  | loaded flight answer hstage =>
      have hinserts : c.inserts frame.group (.answerLoad number answer) =
          group.inserts frame.key .main (LoadAnswer.outcome frame.key answer) := by
        simp [inserts, fill?, htask, hframes, hgroup]
      rw [hinserts]
      exact h.takeLoaded hsound frame.key c.now answer
  | fetched flight peer answer hstage =>
      have hinserts : c.inserts frame.group (.answerFetch number answer) =
          group.inserts frame.key .hot answer := by
        simp [inserts, fill?, htask, hframes, hgroup]
      rw [hinserts]
      exact h.takeFetched hsound frame.key c.now answer

/-- Whatever happens to a group, clearing its tiers aside, keeps it in balance. -/
theorem Books.balanced (books : Books c action following index group after)
    (hgroup : c.groups[index]? = some group) (hsound : group.cache.Sound)
    (hown : action ≠ .clear index) (h : group.Balanced refusals insertions) :
    after.Balanced (refusals + (c.refuses index action).toNat)
      (insertions + (c.inserts index action).toNat) := by
  cases books with
  | rested _ hrests hquiet =>
      rw [hquiet.refuses, hquiet.inserts]
      exact hrests.balanced h
  | turned number task frame outer stage _ htask hframes heq turn =>
      subst heq
      exact turn.balanced htask hframes hgroup hsound h
  | fetched left key flight peer answer hrests hrefuses hinserts =>
      rw [hrefuses, hinserts, ← hrests.inserts]
      exact (hrests.balanced h).takeFetched (hrests.cache ▸ hsound) key c.now answer
  | removed key haction =>
      subst haction
      exact h.remove hsound key
  | cleared _ haction => exact absurd haction hown

/-! ## Calls and loads -/

/-- What becomes of the counters of a group as a frame goes from one stage to another: a call that
was answered is one that the frame might make, a call that it may make from now on answers for a
flight that it leads, and a load that was counted asks the flight table, once more if it is
stranded. -/
structure Tallies (group : Group) (old : FrameStage) (after : Group) (new : FrameStage) : Prop where
  fetched : after.counts.fetched + new.mayFetch.toNat + group.flights.executions ≤
    group.counts.fetched + old.mayFetch.toNat + after.flights.executions
  loaded : after.counts.loaded + new.mayLoad.toNat + group.flights.executions ≤
    group.counts.loaded + old.mayLoad.toNat + after.flights.executions
  asked : after.counts.loads + old.enters.toNat + group.flights.executions +
      group.flights.waits + (old.stranded group.flights).toNat =
    group.counts.loads + new.enters.toNat + after.flights.executions + after.flights.waits

/-- Consulting a group counts a load where it leads to the flight table. -/
theorem tallies_consult {key : String} {now : Millis} {cancelled : Bool} {outcome : Option Outcome}
    {stage : FrameStage} (h : group.consult key now cancelled = (outcome, after))
    (henters : stage.enters = outcome.isNone) (hfetch : stage.mayFetch = false)
    (hload : stage.mayLoad = false) : Tallies group .asked after stage := by
  obtain ⟨hfetched, hloaded, hloads⟩ := group.consult_calls key now cancelled
  have hflights := (group.consult_kept key now cancelled).flights
  rw [h] at hfetched hloaded hloads hflights
  dsimp only at hfetched hloaded hloads hflights
  refine ⟨?_, ?_, ?_⟩
  · rw [hfetched, hfetch, hflights]
    exact Nat.le_refl _
  · rw [hloaded, hload, hflights]
    exact Nat.le_refl _
  · rw [hloads, henters, hflights]
    rfl

/-- Taking in the answer of a peer counts a fetch at most. -/
theorem tallies_takeFetched (group : Group) (key : String) (now : Millis) (answer : Outcome)
    (flight : Nat) {errand : Errand} (hfetch : (FrameStage.leading flight errand).mayFetch = true)
    (hload : (FrameStage.leading flight errand).mayLoad = true) :
    Tallies group (.leading flight errand) (group.takeFetched key now answer).2
      (.leading flight (group.takeFetched key now answer).1.errand) := by
  obtain ⟨hfetched, hloaded, hloads⟩ := group.takeFetched_calls key now answer
  have hflights := (group.takeFetched_kept key now answer).flights
  refine ⟨?_, ?_, ?_⟩
  · have hdone : (FrameStage.leading flight
        (group.takeFetched key now answer).1.errand).mayFetch = false := by
      cases (group.takeFetched key now answer).1 <;> rfl
    rw [hdone, hfetch, hflights, Bool.toNat_true, Bool.toNat_false]
    omega
  · have hmay := Bool.toNat_le
      (FrameStage.leading flight (group.takeFetched key now answer).1.errand).mayLoad
    rw [hload, hflights, hloaded, Bool.toNat_true]
    omega
  · rw [hloads, hflights]
    rfl

/-- Taking in the answer of a loader counts a call. -/
theorem tallies_takeLoaded (group : Group) (key : String) (now : Millis) (answer : LoadAnswer)
    (flight : Nat) : Tallies group (.leading flight .loading) (group.takeLoaded key now answer).2
      (.leading flight (.done (group.takeLoaded key now answer).1)) := by
  obtain ⟨hfetched, hloaded, hloads⟩ := group.takeLoaded_calls key now answer
  have hflights := (group.takeLoaded_kept key now answer).flights
  refine ⟨?_, ?_, ?_⟩
  · rw [hfetched, hflights]
    exact Nat.le_refl _
  · rw [hloaded, hflights]
    exact Nat.le_refl _
  · rw [hloads, hflights]
    rfl

/-- A frame that asks the flight table is about to do so for the first time or stranded. -/
theorem Contends.asks {frame : Frame} (h : Contends frame group) :
    frame.stage.enters.toNat + (frame.stage.stranded group.flights).toNat = 1 ∧
      frame.stage.mayFetch = false ∧ frame.stage.mayLoad = false := by
  rcases h with hstage | ⟨flight, hstage, hlost⟩
  · rw [hstage]
    exact ⟨rfl, rfl, rfl⟩
  · rw [hstage, FrameStage.stranded, hlost]
    exact ⟨rfl, rfl, rfl⟩

/-- What a turn does to the counters of its group. -/
theorem Turn.tallies {task : Task} {frame : Frame} {stage : FrameStage}
    (turn : Turn c number task frame group action stage after) :
    Tallies group frame.stage after stage := by
  cases turn with
  | answered outcome _ hstage hconsult | missed _ hstage hconsult =>
      rw [hstage]
      exact tallies_consult hconsult rfl rfl rfl
  | joined flight hcontends =>
      obtain ⟨hasks, hfetch, hload⟩ := hcontends.asks
      refine ⟨?_, ?_, ?_⟩
      · rw [hfetch]
        exact Nat.le_refl _
      · rw [hload]
        exact Nat.le_refl _
      · simp only [show (FrameStage.waiting flight).enters = false from rfl, Bool.toNat_false]
        omega
  | led hcontends =>
      obtain ⟨hasks, hfetch, hload⟩ := hcontends.asks
      refine ⟨?_, ?_, ?_⟩
      · rw [hfetch]
        exact Nat.le_of_eq (Nat.add_right_comm _ _ _)
      · rw [hload]
        exact Nat.le_of_eq (Nat.add_right_comm _ _ _)
      · simp only [show (FrameStage.leading group.flights.flights.size .recheck).enters = false
          from rfl, Bool.toNat_false]
        omega
  | took flight outcome hstage hlanded =>
      rw [hstage]
      refine ⟨Nat.le_refl _, Nat.le_refl _, ?_⟩
      rw [FrameStage.stranded, FlightTable.status_eq_landed.2 hlanded]
      rfl
  | found flight value tier hstage =>
      rw [hstage]
      exact ⟨by simp [FrameStage.mayFetch], by simp [FrameStage.mayLoad], rfl⟩
  | loads flight node hstage =>
      rw [hstage]
      exact ⟨by simp [FrameStage.mayFetch], Nat.le_refl _, rfl⟩
  | fetches flight node peer hstage =>
      rw [hstage]
      exact ⟨Nat.le_refl _, Nat.le_refl _, rfl⟩
  | refused flight node peer sharesToken fault hstage =>
      rw [hstage]
      exact tallies_takeFetched group _ _ _ flight rfl rfl
  | landed flight outcome hstage =>
      rw [hstage]
      exact ⟨Nat.le_refl _, Nat.le_refl _, rfl⟩
  | loaded flight answer hstage =>
      rw [hstage]
      exact tallies_takeLoaded group _ _ _ flight
  | fetched flight peer answer hstage =>
      rw [hstage]
      exact tallies_takeFetched group _ _ _ flight rfl rfl

/-- A group at rest has the same counters. -/
theorem tallies_rests {left : Group} {old new : FrameStage} (h : Tallies left old after new)
    (hrests : left.Rests group) (hold : ∀ table, old.stranded table = false) :
    Tallies group old after new := by
  obtain ⟨hfetched, hloaded, hasked⟩ := h
  obtain ⟨requests, hcounts⟩ := hrests.counts
  have hcalls : left.counts.fetched = group.counts.fetched ∧
      left.counts.loaded = group.counts.loaded ∧ left.counts.loads = group.counts.loads := by
    rw [hcounts]
    exact ⟨rfl, rfl, rfl⟩
  rw [hrests.executions, hcalls.1] at hfetched
  rw [hrests.executions, hcalls.2.1] at hloaded
  rw [hrests.executions, hrests.waits, hcalls.2.2, hold] at hasked
  exact ⟨hfetched, hloaded, by rw [hold, hasked]⟩

/-- The counters of a group move along with the frames on it, whatever happens. -/
theorem Books.tallies (books : Books c action following index group after)
    (hown : action ≠ .clear index) :
    ∃ gone come, Recounts c action following index gone come ∧ Tallies group gone after come ∧
      ∀ flight, gone = .waiting flight →
        ∃ number frame, c.HasFrame number frame ∧ frame.group = index ∧ frame.stage = gone := by
  cases books with
  | rested _ hrests hquiet hflights hrecounts =>
      have hsame : Tallies after .asked after .asked := ⟨Nat.le_refl _, Nat.le_refl _, rfl⟩
      exact ⟨_, _, hrecounts, tallies_rests hsame hrests fun _ ↦ rfl, fun _ heq ↦ nomatch heq⟩
  | turned number task frame outer stage _ htask hframes heq turn hrecounts =>
      refine ⟨_, _, hrecounts, turn.tallies, fun flight hwaits ↦ ⟨number, frame, ?_, heq, rfl⟩⟩
      exact ⟨task, htask, hframes ▸ List.mem_cons_self⟩
  | fetched left key flight peer answer hrests hrefuses hinserts hflights hrecounts =>
      have htaken : Tallies left (.leading flight (.fetching peer))
          (left.takeFetched key c.now answer).2
          (.leading flight (left.takeFetched key c.now answer).1.errand) :=
        tallies_takeFetched left key c.now answer flight rfl rfl
      exact ⟨_, _, hrecounts, tallies_rests htaken hrests fun _ ↦ rfl, fun _ heq ↦ nomatch heq⟩
  | removed key haction hrecounts =>
      obtain ⟨hfetched, hloaded, hloads⟩ := group.remove_calls key
      have hflights := (group.remove_kept key).flights
      refine ⟨_, _, hrecounts, ⟨?_, ?_, ?_⟩, fun _ heq ↦ nomatch heq⟩
      · rw [hfetched, hflights]
      · rw [hloaded, hflights]
      · rw [hloads, hflights]
        rfl
  | cleared _ haction => exact absurd haction hown

/-- A turn loses no flight. -/
theorem Turn.not_lost {task : Task} {frame : Frame} {stage : FrameStage}
    (turn : Turn c number task frame group action stage after)
    (h : ∀ flight : Nat, group.flights.flights[flight]? ≠ some .lost) (flight : Nat) :
    after.flights.flights[flight]? ≠ some .lost := by
  have hkept (hflights : after.flights = group.flights) :
      after.flights.flights[flight]? ≠ some .lost := hflights ▸ h flight
  have hconsulted (outcome : Option Outcome)
      (hconsult : group.consult frame.key c.now (frame.hearsToken && task.cancelled) =
        (outcome, after)) : after.flights.flights[flight]? ≠ some .lost := by
    have hflights := (group.consult_kept frame.key c.now
      (frame.hearsToken && task.cancelled)).flights
    rw [hconsult] at hflights
    exact hkept hflights
  cases turn with
  | answered outcome _ hstage hconsult => exact hconsulted _ hconsult
  | missed _ hstage hconsult => exact hconsulted _ hconsult
  | led =>
      intro hlost
      rcases cases_push hlost with hnew | hold
      · cases hnew
      · exact h flight hold
  | landed landing outcome =>
      intro hlost
      replace hlost :
          (group.flights.flights.setIfInBounds landing (.landed outcome))[flight]? =
            some .lost := hlost
      rw [Array.getElem?_setIfInBounds] at hlost
      split at hlost
      · split at hlost <;> cases hlost
      · exact h flight hlost
  | loaded => exact hkept (group.takeLoaded_kept _ _ _).flights
  | refused | fetched => exact hkept (group.takeFetched_kept _ _ _).flights
  | joined | took | found | loads | fetches => exact h flight

/-- No flight is lost where nothing is given up. -/
theorem Books.not_lost (books : Books c action following index group after)
    (hown : action ≠ .clear index) (hkeeps : action.givesUp = false)
    (h : ∀ flight : Nat, group.flights.flights[flight]? ≠ some .lost) (flight : Nat) :
    after.flights.flights[flight]? ≠ some .lost := by
  cases books with
  | rested _ _ _ hflights => exact hflights hkeeps ▸ h flight
  | turned number task frame outer stage _ _ _ _ turn => exact turn.not_lost h flight
  | fetched left key landing peer answer _ _ _ hflights =>
      rw [(left.takeFetched_kept key c.now answer).flights, hflights hkeeps]
      exact h flight
  | removed => exact h flight
  | cleared _ haction => exact absurd haction hown

/-! ## Runs -/

/-- How many gets a group refused. -/
def refusedGets (past : List Moment) (index : Nat) : Nat :=
  past.countP fun moment ↦ moment.before.refuses index moment.action

/-- How many entries were inserted into the tiers of a group. -/
def insertedEntries (past : List Moment) (index : Nat) : Nat :=
  past.countP fun moment ↦ moment.before.inserts index moment.action

/-- A get that found nothing is not given up before it asks the flight table: there is nothing in
between that it waits for. -/
def Moment.Patient (moment : Moment) : Prop :=
  moment.action.givesUp = true → ∀ number frame, moment.action.mover? = some number →
    moment.before.HasFrame number frame → frame.stage ≠ .missed

/-- What holds of a group after a run: it is in balance, every call that was answered or may be made
has a flight of its own, and every load that was counted asked the flight table or is about to. -/
structure Reckons (c : Cluster) (past : List Moment) (index : Nat) (group : Group) : Prop where
  balanced : group.Balanced (refusedGets past index) (insertedEntries past index)
  fetched : group.counts.fetched + c.census index FrameStage.mayFetch ≤ group.flights.executions
  loaded : group.counts.loaded + c.census index FrameStage.mayLoad ≤ group.flights.executions
  asked : (∀ moment ∈ past, moment.Patient) → group.counts.loads ≤
    group.flights.executions + group.flights.waits + c.census index FrameStage.enters
  once : (∀ moment ∈ past, moment.action.givesUp = false) →
    group.counts.loads =
        group.flights.executions + group.flights.waits + c.census index FrameStage.enters ∧
      ∀ flight : Nat, group.flights.flights[flight]? ≠ some .lost

/-- Whatever happens to a group, clearing its tiers aside, keeps it so. -/
theorem Books.reckons (books : Books c action following index group after)
    (hgroup : c.groups[index]? = some group) (hsound : group.cache.Sound)
    (hown : action ≠ .clear index)
    (hwaits : ∀ number frame flight, c.HasFrame number frame → frame.group = index →
      frame.stage = .waiting flight → flight < group.flights.flights.size)
    (h : Reckons c past index group) :
    Reckons following (⟨c, action, following⟩ :: past) index after := by
  obtain ⟨gone, come, hrecounts, htallies, hframe⟩ := books.tallies hown
  refine ⟨?_, ?_, ?_, ?_, ?_⟩
  · rw [refusedGets, insertedEntries, countP_cons_toNat, countP_cons_toNat]
    exact books.balanced hgroup hsound hown h.balanced
  · have hcensus := hrecounts.le passing_mayFetch
    have hfetched := htallies.fetched
    have hbefore := h.fetched
    omega
  · have hcensus := hrecounts.le passing_mayLoad
    have hloaded := htallies.loaded
    have hbefore := h.loaded
    omega
  · intro hpatient
    have hcensus := hrecounts.eq passing_enters fun hgives number frame hmover hframe ↦
      FrameStage.enters_eq_false (hpatient _ List.mem_cons_self hgives number frame hmover hframe)
    have hasked := htallies.asked
    have hbefore := h.asked fun moment hmem ↦ hpatient moment (List.mem_cons_of_mem _ hmem)
    omega
  · intro hkeeps
    obtain ⟨hbefore, hlost⟩ := h.once fun moment hmem ↦ hkeeps moment (List.mem_cons_of_mem _ hmem)
    have hkeeping : action.givesUp = false := hkeeps _ List.mem_cons_self
    have hstranded : gone.stranded group.flights = false := by
      cases gone with
      | waiting flight =>
          obtain ⟨number, frame, hframe, heq, hstage⟩ := hframe flight rfl
          have hlt := hwaits number frame flight hframe heq hstage
          rw [FrameStage.stranded, decide_eq_false_iff_not, FlightTable.status,
            Array.getD_eq_getD_getElem?, Array.getElem?_eq_getElem hlt]
          intro hstatus
          exact hlost flight (by rw [Array.getElem?_eq_getElem hlt]; exact congrArg some hstatus)
      | _ => rfl
    have hcensus := hrecounts.eq passing_enters fun hgives ↦
      absurd (hkeeping.symm.trans hgives) Bool.false_ne_true
    have hasked := htallies.asked
    rw [hstranded, Bool.toNat_false] at hasked
    exact ⟨by omega, books.not_lost hown hkeeping hlost⟩

/-- Every frame is on a group that is there. -/
theorem Course.exists_group (course : Course empty c past) {frame : Frame}
    (hframe : c.HasFrame number frame) : ∃ group, c.groups[frame.group]? = some group ∧
      ∀ flight, frame.stage = .waiting flight → flight < group.flights.flights.size := by
  obtain ⟨keys, goals, hsound⟩ := course.runs.keyed
  obtain ⟨task, htask, hmem⟩ := hframe
  obtain ⟨group, hgroup, -, -, hfits⟩ := hsound.frames number task htask frame hmem
  refine ⟨group, hgroup, fun flight hstage ↦ ?_⟩
  rw [hstage] at hfits
  exact hfits.1

/-- A group that is not there refuses nothing, and nothing is inserted into it. -/
theorem Course.quiet (course : Course empty c past) (hnone : c.groups[index]? = none)
    (action : Action) : c.Quiet index action := by
  refine ⟨?_, by simp [inserts, hnone]⟩
  cases action with
  | step number =>
      cases htask : c.tasks[number]? with
      | none => simp [refuses, htask]
      | some task =>
          cases hframes : task.frames with
          | nil => simp [refuses, htask, hframes]
          | cons frame outer =>
              obtain ⟨group, hgroup, -⟩ :=
                course.exists_group ⟨task, htask, hframes ▸ List.mem_cons_self⟩
              have hne : frame.group ≠ index := by
                rintro rfl
                cases hnone.symm.trans hgroup
              simp [refuses, htask, hframes, hne]
  | _ => rfl

/-- A group that is not there yet refused nothing, and nothing was inserted into it. -/
theorem Course.silent (course : Course empty c past) (hnone : c.groups[index]? = none) :
    refusedGets past index = 0 ∧ insertedEntries past index = 0 := by
  induction course with
  | here => exact ⟨rfl, rfl⟩
  | @next middle following past action course hact ih =>
      have hbefore : middle.groups[index]? = none := by
        rw [Option.eq_none_iff_forall_ne_some]
        intro group hgroup
        obtain ⟨after, hafter, -⟩ := (act?_move hact).books hgroup
        cases hnone.symm.trans hafter
      obtain ⟨hrefused, hinserted⟩ := ih hbefore
      obtain ⟨hrefuses, hinserts⟩ := course.quiet hbefore action
      rw [refusedGets, insertedEntries, countP_cons_toNat, countP_cons_toNat, hrefuses, hinserts]
      exact ⟨hrefused, hinserted⟩

/-- A group that has just been made has nothing to reckon with. -/
theorem Course.reckons_created (course : Course empty c past)
    (hact : c.act? action = some following) (hnone : c.groups[index]? = none)
    (hafter : following.groups[index]? = some after) :
    Reckons following (⟨c, action, following⟩ :: past) index after := by
  have hcensus {kind : FrameStage → Bool} (hkind : Passing kind) :
      following.census index kind = 0 := by
    refine census_eq_zero fun number frame hframe heq ↦ ?_
    have hno {before : Frame} (hbefore : c.HasFrame number before)
        (hindex : before.group = index) : False := by
      obtain ⟨group, hgroup, -⟩ := course.exists_group hbefore
      rw [hindex] at hgroup
      cases hnone.symm.trans hgroup
    rcases (act?_move hact).frames hframe with hold | hasked | ⟨before, stage, hbefore, rfl, -⟩
    · exact (hno hold heq).elim
    · rw [hasked, hkind.asked]
    · exact (hno hbefore heq).elim
  obtain ⟨hrefused, hinserted⟩ := course.silent hnone
  obtain ⟨hrefuses, hinserts⟩ := course.quiet hnone action
  cases (act?_move hact).restocks hafter with
  | made name settings heq =>
      subst heq
      refine ⟨?_, ?_, ?_, fun _ ↦ ?_, fun _ ↦ ⟨?_, ?_⟩⟩
      · rw [refusedGets, insertedEntries, countP_cons_toNat, countP_cons_toNat, hrefuses, hinserts]
        rw [refusedGets] at hrefused
        rw [insertedEntries] at hinserted
        rw [hrefused, hinserted]
        exact Group.balanced_create name settings
      · rw [hcensus passing_mayFetch]
        exact Nat.le_refl 0
      · rw [hcensus passing_mayLoad]
        exact Nat.le_refl 0
      · exact Nat.zero_le _
      · rw [hcensus passing_enters]
        rfl
      · intro flight hlost
        cases hlost
  | kept group hgroup => cases hnone.symm.trans hgroup
  | filled group fill hgroup => cases hnone.symm.trans hgroup

/-- Every run keeps the counters of every group. -/
theorem Course.reckons (course : Course empty c past)
    (hown : ∀ moment ∈ past, moment.action ≠ .clear index)
    (hgroup : c.groups[index]? = some group) : Reckons c past index group := by
  induction course generalizing group with
  | here => exact nomatch hgroup
  | @next middle following past action course hact ih =>
      cases hbefore : middle.groups[index]? with
      | none => exact course.reckons_created hact hbefore hgroup
      | some before =>
          obtain ⟨after, hafter, hbooks⟩ := (act?_move hact).books hbefore
          rw [hgroup] at hafter
          cases hafter
          refine hbooks.reckons hbefore (course.runs.orderly.tidy index before hbefore).sound
            (hown _ List.mem_cons_self) ?_
            (ih (fun moment hmem ↦ hown moment (List.mem_cons_of_mem _ hmem)) hbefore)
          rintro number frame flight hframe rfl hstage
          obtain ⟨found, hfound, hlt⟩ := course.exists_group hframe
          rw [hbefore] at hfound
          cases hfound
          exact hlt flight hstage

/-- The statistics of a group reconcile after every run in which its tiers were not cleared behind
its back. Once no get on it is between a miss and the flight table, every load led a fill or joined
one; and none did so twice if no call was cancelled or given up. -/
theorem statistics_reconcile (course : Course empty c past) (hgroup : c.groups[index]? = some group)
    (hown : ∀ moment ∈ past, moment.action ≠ .clear index) :
    group.stats.Reconciles group.settings.cacheBytes (refusedGets past index)
        (insertedEntries past index) ∧
      ((∀ number frame, c.HasFrame number frame → frame.group = index → frame.stage ≠ .missed) →
        ((∀ moment ∈ past, moment.Patient) →
          group.stats.loads ≤ group.stats.loadsDeduped + group.stats.coalescedWaits) ∧
        ((∀ moment ∈ past, moment.action.givesUp = false) →
          group.stats.loads = group.stats.loadsDeduped + group.stats.coalescedWaits)) := by
  obtain ⟨⟨hbudget, hgets, hhits, hmain, hhot, hevictions, hentries⟩, hfetched, hloaded, hasked,
    honce⟩ := course.reckons hown hgroup
  refine ⟨⟨hgets, hhits, fun hpositive ↦ ?_, fun hpositive ↦ ?_, hevictions, ?_, ?_, hentries⟩,
    fun hpoised ↦ ?_⟩
  · have hreads := hmain hpositive
    show group.cache.mainReads.gets = group.counts.gets - refusedGets past index
    omega
  · show group.cache.hotReads.gets = group.cache.mainReads.gets - group.cache.mainReads.hits
    omega
  · exact Nat.le_trans (Nat.le_add_right _ _) hfetched
  · exact Nat.le_trans (Nat.le_add_right _ _) hloaded
  · have hnone : c.census index FrameStage.enters = 0 :=
      census_eq_zero fun number frame hframe heq ↦
        FrameStage.enters_eq_false (hpoised number frame hframe heq)
    rw [hnone] at hasked honce
    exact ⟨hasked, fun hkeeps ↦ (honce hkeeps).1⟩

/-- A node loads a value once, answers a second get from its tiers and refuses a third one, before
the value is removed. -/
def audit : List Action :=
  [.join (.alone "a" 1 fun _ ↦ 0) .absent "/" 1000, .create 0 "g" .default,
    .get 0 0 "k" true false none, .step 0, .step 0, .step 0,
    .answerLoad 0 (.ok ⟨"v".toUTF8, none⟩), .step 0, .step 0, .get 0 0 "k" true false none, .step 1,
    .step 1, .get 0 0 "k" true true none, .step 2, .step 2, .remove 0 "k"]

/-- Where that leads to. -/
def audited : Cluster :=
  (empty.actAll? audit).get (by decide +kernel)

/-- A node loads a value for a get, and another get waits for it. -/
def sharing : List Action :=
  [.join (.alone "a" 1 fun _ ↦ 0) .absent "/" 1000, .create 0 "g" .default,
    .get 0 0 "k" true false none, .step 0, .step 0, .step 0, .get 0 0 "k" true false none, .step 1,
    .step 1]

/-- Where that leads to. -/
def shared : Cluster :=
  (empty.actAll? sharing).get (by decide +kernel)

/-- The first get is given up. -/
def deserted : Cluster :=
  (shared.act? (.drop 0)).get (by decide +kernel)

/-- The second get leads a flight of its own. -/
def resumed : Cluster :=
  (deserted.act? (.step 1)).get (by decide +kernel)

/-- That no get is between a miss and the flight table can be read off. -/
theorem ne_missed_of_all {frame : Frame} (h : c.HasFrame number frame)
    (hall : (c.tasks.toList.all fun task ↦
      task.frames.all fun frame ↦ decide (frame.stage ≠ .missed)) = true) :
    frame.stage ≠ .missed := by
  obtain ⟨task, htask, hmem⟩ := h
  have htasks := List.all_eq_true.1 hall task (Array.mem_toList_iff.2 (Array.mem_of_getElem? htask))
  exact of_decide_eq_true (List.all_eq_true.1 htasks frame hmem)

/-- Nothing is given up on the way there. -/
theorem course_audited : ∃ past, Course empty audited past ∧
    ∀ moment ∈ past, moment.action ≠ .clear 0 ∧ moment.action.givesUp = false := by
  have hact : empty.actAll? audit = some audited := (Option.some_get _).symm
  have haudit : ∀ action ∈ audit, action ≠ .clear 0 ∧ action.givesUp = false := by
    simp [audit, Action.givesUp]
  obtain ⟨past, hcourse, hactions⟩ := Course.here.actAll hact
  exact ⟨_, hcourse, fun moment hmem ↦
    haudit _ (hactions moment ((List.mem_append.1 hmem).resolve_right List.not_mem_nil))⟩

/-- On the way there the get that is given up is loading. -/
theorem course_resumed : ∃ past, Course empty resumed past ∧
    ∀ moment ∈ past, moment.action ≠ .clear 0 ∧ moment.Patient := by
  have hshared : empty.actAll? sharing = some shared := (Option.some_get _).symm
  have hdeserted : shared.act? (.drop 0) = some deserted := (Option.some_get _).symm
  have hresumed : deserted.act? (.step 1) = some resumed := (Option.some_get _).symm
  have hsharing : ∀ action ∈ sharing, action ≠ .clear 0 ∧ action.givesUp = false := by
    simp [sharing, Action.givesUp]
  obtain ⟨past, hcourse, hactions⟩ := Course.here.actAll hshared
  refine ⟨_, (hcourse.next hdeserted).next hresumed, fun moment hmem ↦ ?_⟩
  rcases List.mem_cons.1 hmem with rfl | hmem
  · exact ⟨Action.noConfusion, fun hgives ↦ absurd hgives Bool.false_ne_true⟩
  · rcases List.mem_cons.1 hmem with rfl | hmem
    · exact ⟨Action.noConfusion, fun _ number frame _ hframe ↦
        ne_missed_of_all hframe (by decide +kernel)⟩
    · obtain ⟨hown, hkeeps⟩ := hsharing _
        (hactions moment ((List.mem_append.1 hmem).resolve_right List.not_mem_nil))
      exact ⟨hown, fun hgives ↦ absurd (hkeeps.symm.trans hgives) Bool.false_ne_true⟩

/-- One of three gets was refused, and the other two are a hit and a load; the load led the one fill
that there was, whose entry was removed. Where a get that led is given up, the one that waited for
it is counted twice. -/
theorem statistics_reconcile_audited :
    (∃ past group, Course empty audited past ∧ audited.groups[0]? = some group ∧
      (∀ moment ∈ past, moment.action ≠ .clear 0 ∧ moment.action.givesUp = false) ∧
      0 < group.settings.cacheBytes ∧ group.stats.gets = 3 ∧ group.stats.cacheHits = 1 ∧
      group.stats.loads = 1 ∧ group.stats.loadsDeduped = 1 ∧ group.stats.main.gets = 2 ∧
      refusedGets past 0 = 1 ∧ insertedEntries past 0 = 1) ∧
    ∃ past group, Course empty resumed past ∧ resumed.groups[0]? = some group ∧
      (∀ moment ∈ past, moment.action ≠ .clear 0 ∧ moment.Patient) ∧
      group.stats.loads = 2 ∧ group.stats.loadsDeduped + group.stats.coalescedWaits = 3 ∧
      group.stats.loads ≤ group.stats.loadsDeduped + group.stats.coalescedWaits := by
  constructor
  · obtain ⟨past, hcourse, hpast⟩ := course_audited
    have hstats : (audited.groups[0]?).map (fun group ↦
        (decide (0 < group.settings.cacheBytes), group.stats.gets, group.stats.cacheHits,
          group.stats.negativeHits, group.stats.loadsDeduped, group.stats.coalescedWaits)) =
        some (true, 3, 1, 0, 1, 0) := by decide +kernel
    have hheld : (audited.groups[0]?).map (fun group ↦
        (group.stats.main.items, group.stats.hot.items, group.stats.evictions,
          group.stats.removals, group.stats.expirations)) = some (0, 0, 0, 1, 0) := by
      decide +kernel
    obtain ⟨group, hgroup, hstats⟩ := Option.map_eq_some_iff.1 hstats
    rw [hgroup, Option.map_some] at hheld
    simp only [Prod.mk.injEq, decide_eq_true_eq, Option.some.injEq] at hstats hheld
    obtain ⟨hpositive, hgets, hhits, hnegative, hdeduped, hwaits⟩ := hstats
    obtain ⟨hreconciles, hsettled⟩ :=
      statistics_reconcile hcourse hgroup fun moment hmem ↦ (hpast moment hmem).1
    obtain ⟨-, honce⟩ := hsettled fun _ _ hframe _ ↦ ne_missed_of_all hframe (by decide +kernel)
    have hloads := honce fun moment hmem ↦ (hpast moment hmem).2
    have hrefused := hreconciles.gets
    have hinserted := hreconciles.entries
    have hreads := hreconciles.mainReads hpositive
    refine ⟨past, group, hcourse, hgroup, hpast, hpositive, hgets, hhits, ?_, hdeduped, ?_, ?_, ?_⟩
      <;> omega
  · obtain ⟨past, hcourse, hpast⟩ := course_resumed
    have hstats : (resumed.groups[0]?).map (fun group ↦
        (group.stats.loads, group.stats.loadsDeduped + group.stats.coalescedWaits)) =
        some (2, 3) := by decide +kernel
    obtain ⟨group, hgroup, hstats⟩ := Option.map_eq_some_iff.1 hstats
    obtain ⟨hloads, hasked⟩ := Prod.mk.inj hstats
    obtain ⟨-, hsettled⟩ :=
      statistics_reconcile hcourse hgroup fun moment hmem ↦ (hpast moment hmem).1
    obtain ⟨hle, -⟩ := hsettled fun _ _ hframe _ ↦ ne_missed_of_all hframe (by decide +kernel)
    exact ⟨past, group, hcourse, hgroup, hpast, hloads, hasked,
      hle fun moment hmem ↦ (hpast moment hmem).2⟩

end Cluster

end ReadThrough
